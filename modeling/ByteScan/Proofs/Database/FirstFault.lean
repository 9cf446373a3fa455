import ByteScan.Proofs.Database.Concatenation
import ByteScan.Proofs.Database.Lenient

/-!
# Why strict reading refuses a file

The fault of a file that is read strictly, said of its lines and their numbers and not by reading
them. A line in front of all headers comes first, and then the first section in which something is
wrong. In a section its lines come before its signature, wherever the signature stands, and of
several signatures the last one counts.

* `Line.Breaks`, `Line.breach`: a line that cannot stand in a section, and its fault.
* `FaultAt`: the fault of the section at a place.
* `sectionText`: a section alone, as a file of its own.

Results:
1. `findSome?_numberFrom_eq`, `signature_foldl_numberFrom`: the first line that breaks a rule, and the
   last signature.
2. `fault?_sectionOf`: the fault of a section.
3. `result_sectionText`: a section is accepted alone exactly if it has no fault.
4. `parse_strict_error_iff`: whole files.
-/

namespace ByteScan.Database

open Line

/-! ## Definitions -/

/-- A line that cannot stand in a section when it is read strictly: it has no `=`, or it gives to
`ep_only` a value that is neither true nor false. -/
def Line.Breaks (cs : List Char) : Prop :=
  IsSignificant cs ∧ ¬ IsHeader cs ∧
    ('=' ∉ cs ∨
      keyOf cs = "ep_only" ∧ saysTrue (valueOf cs) = false ∧ saysFalse (valueOf cs) = false)

instance : DecidablePred Line.Breaks :=
  fun cs => inferInstanceAs (Decidable (IsSignificant cs ∧ ¬ IsHeader cs ∧
    ('=' ∉ cs ∨
      keyOf cs = "ep_only" ∧ saysTrue (valueOf cs) = false ∧ saysFalse (valueOf cs) = false)))

/-- The fault of a line that cannot stand in a section. -/
def Line.breach (number : Nat) (cs : List Char) : DatabaseError :=
  if '=' ∈ cs then .invalidEntryPointOnly number (valueOf cs)
  else .unexpectedLine number (String.ofList cs)

/-- The lines before the first header, with their numbers. -/
def numberedFront (lines : List (List Char)) : List (List Char × Nat) :=
  (lines.takeWhile (¬ IsHeader ·)).zipIdx 1

/-- The lines of the section whose header stands at an index, with their numbers. -/
def numberedBody (lines : List (List Char)) (h : Nat) : List (List Char × Nat) :=
  (bodyOf lines h).zipIdx (h + 2)

/-- The fault of the section whose header stands at an index. -/
inductive FaultAt (lines : List (List Char)) (h : Nat) : DatabaseError → Prop
  /-- The first line that cannot stand in the section. -/
  | line {cs : List Char} {number : Nat} :
      ((numberedBody lines h).find? fun l => Breaks l.1) = some (cs, number) →
      FaultAt lines h (breach number cs)
  /-- No line gives a signature. The fault has the line of the header. -/
  | missing {header : List Char} :
      lines[h]? = some header → (∀ l ∈ numberedBody lines h, ¬ Breaks l.1) →
      (∀ l ∈ numberedBody lines h, ¬ Line.Sets "signature" l.1) →
      FaultAt lines h (.missingSignature (nameOf header) (h + 1))
  /-- The last signature is refused. The fault has the line of that signature. -/
  | signature {header cs : List Char} {number : Nat} {cause : SignatureError} :
      lines[h]? = some header → (∀ l ∈ numberedBody lines h, ¬ Breaks l.1) →
      ((numberedBody lines h).filter fun l => Line.Sets "signature" l.1).getLast? =
        some (cs, number) →
      Signature.ofText (valueOf cs) = .error cause →
      FaultAt lines h (.signature (nameOf header) number cause)

/-- The section whose header stands at an index, as a file of its own. -/
def sectionText (text : String) (h : Nat) : String :=
  let lines := (Text.lines text.toList).drop h
  String.ofList
    (Text.joinLines true (fun _ => .feed)
      (lines.take ((bodyOf (trimmedLines text) h).length + 1)))

/-! ## 1. First and last lines -/

section Lines

variable {lines : List (List Char)} (index : Nat)

/-- The first line with a fault, if which lines have one and what it is are known. -/
theorem findSome?_numberFrom_eq {f : Nat → Line → Option DatabaseError} {p : List Char → Prop}
    [DecidablePred p] {g : Nat → List Char → DatabaseError}
    (h : ∀ cs ∈ lines, ∀ number,
      f number (ofTrimmed cs) = if p cs then some (g number cs) else none) :
    ((numberFrom index lines).findSome? fun l => f l.1 l.2) =
      ((lines.zipIdx (index + 1)).find? fun l => p l.1).map fun l => g l.2 l.1 := by
  induction lines generalizing index with
  | nil => rfl
  | cons cs lines ih =>
    obtain ⟨hcs, hlines⟩ := List.forall_mem_cons.mp h
    rw [numberFrom_cons, List.findSome?_cons, hcs, List.zipIdx_cons, List.find?_cons]
    by_cases hp : p cs
    · rw [if_pos hp, decide_eq_true hp]
      rfl
    · rw [if_neg hp, decide_eq_false hp]
      exact ih (index + 1) hlines

theorem signature_foldl_numberFrom (lines : List (List Char)) (settings : Section.Settings) :
    ((numberFrom index lines).foldl Section.Settings.after settings).signature =
      ((((lines.zipIdx (index + 1)).filter fun l => Line.Sets "signature" l.1).getLast?.map
        fun l => (valueOf l.1, l.2))).or settings.signature := by
  induction lines generalizing index settings with
  | nil => rfl
  | cons cs lines ih =>
    rw [numberFrom_cons, List.foldl_cons, ih, Section.Settings.after, value?_ofTrimmed,
      List.zipIdx_cons, List.filter_cons]
    by_cases hsets : Line.Sets "signature" cs
    · rw [if_pos hsets, if_pos (by simpa using hsets), List.getLast?_cons]
      cases ((lines.zipIdx (index + 1 + 1)).filter fun l => Line.Sets "signature" l.1).getLast? <;>
        rfl
    · rw [if_neg hsets, if_neg (by simpa using hsets)]
      rfl

end Lines

/-! ## 2. The fault of a section -/

section Sections

variable {lines : List (List Char)} {h : Nat} {header : List Char} {fault : DatabaseError}

theorem fault?_strict_ofTrimmed (number : Nat) (cs : List Char) :
    Line.fault? .strict number (ofTrimmed cs) =
      if Breaks cs then some (breach number cs) else none := by
  by_cases hsig : IsSignificant cs
  · by_cases hheader : IsHeader cs
    · rw [ofTrimmed_of_isHeader hheader, if_neg fun h => h.2.1 hheader, Line.fault?]
    · by_cases hmem : '=' ∈ cs
      · rw [ofTrimmed_of_mem hsig hheader hmem, Line.fault?, breach, if_pos hmem]
        refine if_congr ?_ rfl rfl
        constructor
        · rintro ⟨hkey, -, hvalue⟩
          exact ⟨hsig, hheader, .inr ⟨hkey, hvalue⟩⟩
        · rintro ⟨-, -, hnot | ⟨hkey, hvalue⟩⟩
          · exact absurd hmem hnot
          · exact ⟨hkey, rfl, hvalue⟩
      · rw [ofTrimmed_of_not_mem hsig hheader hmem, if_pos ⟨hsig, hheader, .inl hmem⟩, breach,
          if_neg hmem, Line.fault?]
  · rw [ofTrimmed_of_not_significant hsig, if_neg fun h => hsig h.1, Line.fault?]

/-- The section whose header stands at an index. -/
def sectionOf (lines : List (List Char)) (h : Nat) (header : List Char) : Section where
  name := nameOf header
  line := h + 1
  body := numberFrom (h + 1) (bodyOf lines h)

theorem findSome?_body_sectionOf :
    ((sectionOf lines h header).body.findSome? fun l => l.2.fault? .strict l.1) =
      ((numberedBody lines h).find? fun l => Breaks l.1).map fun l => breach l.2 l.1 :=
  findSome?_numberFrom_eq (h + 1) fun cs _ number => fault?_strict_ofTrimmed number cs

theorem signature_made_sectionOf :
    (sectionOf lines h header).made.signature =
      ((numberedBody lines h).filter fun l => Line.Sets "signature" l.1).getLast?.map
        fun l => (valueOf l.1, l.2) := by
  rw [Section.made, sectionOf, signature_foldl_numberFrom, Option.or_none]
  rfl

theorem buildFault?_sectionOf :
    (sectionOf lines h header).buildFault? =
      match ((numberedBody lines h).filter fun l => Line.Sets "signature" l.1).getLast? with
      | none => some (.missingSignature (nameOf header) (h + 1))
      | some (cs, number) =>
        match Signature.ofText (valueOf cs) with
        | .error cause => some (.signature (nameOf header) number cause)
        | .ok _ => none := by
  rw [Section.buildFault?_eq, signature_made_sectionOf]
  cases ((numberedBody lines h).filter fun l => Line.Sets "signature" l.1).getLast? <;> rfl

/-- Without a line that cannot stand in the section the signature decides. -/
theorem buildFault?_eq_some_iff (hheader : lines[h]? = some header)
    (hlines : ∀ l ∈ numberedBody lines h, ¬ Breaks l.1) :
    (sectionOf lines h header).buildFault? = some fault ↔ FaultAt lines h fault := by
  rw [buildFault?_sectionOf]
  constructor
  · intro hfault
    split at hfault
    · next hlast =>
      cases hfault
      refine .missing hheader hlines fun l hl hsets => ?_
      rw [List.getLast?_eq_none_iff, List.filter_eq_nil_iff] at hlast
      exact hlast l hl (by simpa using hsets)
    · next cs number hlast =>
      split at hfault
      · next cause hcause =>
        cases hfault
        exact .signature hheader hlines hlast hcause
      · cases hfault
  · intro hfault
    cases hfault with
    | @line cs number hfirst =>
      have hbreaks : Breaks cs := by simpa using List.find?_some hfirst
      exact absurd hbreaks (hlines _ (List.mem_of_find?_eq_some hfirst))
    | missing hother _ hnone =>
      obtain rfl := Option.some.inj (hheader.symm.trans hother)
      have hlast : ((numberedBody lines h).filter
          fun l => Line.Sets "signature" l.1).getLast? = none := by
        rw [List.getLast?_eq_none_iff, List.filter_eq_nil_iff]
        exact fun l hl => by simpa using hnone l hl
      rw [hlast]
    | signature hother _ hlast hcause =>
      obtain rfl := Option.some.inj (hheader.symm.trans hother)
      simp only [hlast, hcause]

theorem fault?_sectionOf (hheader : lines[h]? = some header) :
    (sectionOf lines h header).fault? .strict = some fault ↔ FaultAt lines h fault := by
  rw [Section.fault?, findSome?_body_sectionOf, if_pos rfl]
  cases hfirst : (numberedBody lines h).find? fun l => Breaks l.1 with
  | some l =>
    rw [Option.map_some, Option.some_or, Option.some.injEq]
    constructor
    · rintro rfl
      exact .line hfirst
    · intro hfault
      have hbreaks : Breaks l.1 := by simpa using List.find?_some hfirst
      have hmem : l ∈ numberedBody lines h := List.mem_of_find?_eq_some hfirst
      cases hfault with
      | line hother => rw [Option.some.inj (hfirst.symm.trans hother)]
      | missing _ hlines _ => exact absurd hbreaks (hlines l hmem)
      | signature _ hlines _ _ => exact absurd hbreaks (hlines l hmem)
  | none =>
    rw [Option.map_none, Option.none_or]
    refine buildFault?_eq_some_iff hheader fun l hl => ?_
    simpa using List.find?_eq_none.mp hfirst l hl

end Sections

/-! ## 3. A section alone -/

section Alone

variable {text : String} {h : Nat} {header : List Char}

theorem not_isHeader_of_mem_bodyOf {lines : List (List Char)} {cs : List Char}
    (hcs : cs ∈ bodyOf lines h) : ¬ IsHeader cs := by
  simpa using List.mem_takeWhile_imp hcs

theorem split_section {lines : List (List Char)} (hheader : IsHeader header) :
    split (numberFrom 0 (header :: bodyOf lines h)) =
      ([], [⟨nameOf header, 1, numberFrom 1 (bodyOf lines h)⟩]) := by
  have hbody : ∀ l ∈ numberFrom 1 (bodyOf lines h), ∀ name, l.2 ≠ .header name := by
    intro l hl
    obtain ⟨⟨cs, i⟩, hmem, rfl⟩ := List.mem_map.mp hl
    exact ofTrimmed_ne_header (not_isHeader_of_mem_bodyOf (List.fst_mem_of_mem_zipIdx hmem))
  rw [numberFrom_cons, ofTrimmed_of_isHeader hheader, split_header, split_of_forall_ne_header hbody]

theorem trimmedLines_sectionText (hheader : (trimmedLines text)[h]? = some header) :
    trimmedLines (sectionText text h) = header :: bodyOf (trimmedLines text) h := by
  have hfeed : ∀ cs ∈ ((Text.lines text.toList).drop h).take
      ((bodyOf (trimmedLines text) h).length + 1), '\n' ∉ cs := by
    intro cs hcs
    exact Text.feed_not_mem_of_mem_lines (List.mem_of_mem_drop (List.mem_of_mem_take hcs))
  have hbody : bodyOf (trimmedLines text) h <+: (trimmedLines text).drop (h + 1) :=
    List.takeWhile_prefix _
  rw [trimmedLines, sectionText, String.toList_ofList,
    Text.map_trim_lines_joinLines hfeed (.inl rfl), List.map_take, List.map_drop, ← trimmedLines,
    List.drop_eq_getElem?_toList_append, hheader, Option.toList_some, List.singleton_append,
    List.take_succ_cons, ← List.prefix_iff_eq_take.mp hbody]

/-- Alone, a section has the fault that it has in the file, but for the numbers of the lines. -/
theorem fault?_sectionText (hlines : (trimmedLines text)[h]? = some header)
    (hheader : IsHeader header) :
    ((sectionOf (trimmedLines text) h header).fault? .strict) =
      (fault? .strict (numberedLines (sectionText text h))).map (DatabaseError.moved h) := by
  have hmoved : sectionOf (trimmedLines text) h header =
      Section.moved h ⟨nameOf header, 1, numberFrom 1 (bodyOf (trimmedLines text) h)⟩ := by
    rw [sectionOf, Section.moved, Nat.add_comm h 1, numberFrom_eq_moved h 1]
  rw [hmoved, Section.fault?_moved, numberedLines_eq, trimmedLines_sectionText hlines, fault?,
    split_section hheader, List.findSome?_nil, Option.none_or, List.findSome?_singleton]

/-- A section is accepted alone exactly if it has no fault in the file. -/
theorem result_sectionText (hlines : (trimmedLines text)[h]? = some header)
    (hheader : IsHeader header) :
    (∃ d, (parse .strict (sectionText text h)).result = .ok d) ↔
      ∀ fault, ¬ FaultAt (trimmedLines text) h fault := by
  have hfault := fault?_sectionText hlines hheader
  calc (∃ d, (parse .strict (sectionText text h)).result = .ok d)
      ↔ fault? .strict (numberedLines (sectionText text h)) = none := by
        rw [result_parse]
        simp [endedBy_eq_ok]
    _ ↔ (sectionOf (trimmedLines text) h header).fault? .strict = none := by
        rw [hfault, Option.map_eq_none_iff]
    _ ↔ ∀ fault, ¬ FaultAt (trimmedLines text) h fault := by
        rw [Option.eq_none_iff_forall_ne_some]
        exact forall_congr' fun fault => not_congr (fault?_sectionOf hlines)

end Alone

/-! ## 4. Files -/

section Files

/-- The first of some ascending places where something is found. -/
theorem findSome?_of_pairwise {β : Type} {f : Nat → Option β} {places : List Nat}
    (h : places.Pairwise (· < ·)) {b : β} :
    places.findSome? f = some b ↔
      ∃ i ∈ places, f i = some b ∧ ∀ j ∈ places, j < i → f j = none := by
  rw [List.findSome?_eq_some_iff]
  constructor
  · rintro ⟨before, i, behind, rfl, hi, hnone⟩
    refine ⟨i, by simp, hi, fun j hj hlt => ?_⟩
    rw [List.pairwise_append, List.pairwise_cons] at h
    obtain ⟨-, ⟨hbehind, -⟩, -⟩ := h
    rcases List.mem_append.mp hj with hbefore | hother
    · exact hnone j hbefore
    rcases List.mem_cons.mp hother with rfl | hmem
    · exact absurd hlt (Nat.lt_irrefl j)
    · exact absurd hlt (Nat.lt_asymm (hbehind j hmem))
  · rintro ⟨i, hi, hfound, hnone⟩
    obtain ⟨before, behind, rfl⟩ := List.append_of_mem hi
    refine ⟨before, i, behind, rfl, hfound, fun j hj => ?_⟩
    rw [List.pairwise_append] at h
    exact hnone j (List.mem_append_left _ hj) (h.2.2 j hj i List.mem_cons_self)

variable {lines : List (List Char)}

theorem pairwise_headers (lines : List (List Char)) : (headers lines).Pairwise (· < ·) :=
  List.pairwise_lt_range.filter _

theorem exists_of_mem_headers {h : Nat} (hh : h ∈ headers lines) :
    ∃ header, lines[h]? = some header ∧ IsHeader header := by
  obtain ⟨-, header, hheader, his⟩ : h < lines.length ∧ ∃ cs ∈ lines[h]?, IsHeader cs := by
    simpa [headers] using hh
  exact ⟨header, hheader, his⟩

theorem front_fault (lines : List (List Char)) :
    ((split (numberFrom 0 lines)).1.findSome? fun l => l.2.faultOutside? l.1) =
      ((numberedFront lines).find? fun l => IsSignificant l.1).map fun l => offence l.2 l.1 := by
  rw [split_numberFrom_fst]
  refine findSome?_numberFrom_eq 0 fun cs hcs number => ?_
  have hheader : ¬ IsHeader cs := by simpa using List.mem_takeWhile_imp hcs
  rw [faultOutside?_ofTrimmed]
  exact if_congr (and_iff_left hheader) rfl rfl

theorem bind_sectionAt?_fault {h : Nat} (hh : h ∈ headers lines) (fault : DatabaseError) :
    (sectionAt? lines h).bind (Section.fault? .strict) = some fault ↔ FaultAt lines h fault := by
  obtain ⟨header, hheader, -⟩ := exists_of_mem_headers hh
  rw [sectionAt?, hheader]
  exact fault?_sectionOf hheader

/-- The fault of the first section that has one. -/
theorem sections_fault (fault : DatabaseError) :
    (split (numberFrom 0 lines)).2.findSome? (Section.fault? .strict) = some fault ↔
      ∃ h ∈ headers lines, FaultAt lines h fault ∧
        ∀ earlier ∈ headers lines, earlier < h → ∀ other, ¬ FaultAt lines earlier other := by
  rw [split_numberFrom, ← List.head?_filterMap, List.filterMap_filterMap, List.head?_filterMap,
    findSome?_of_pairwise (pairwise_headers lines)]
  refine exists_congr fun h => and_congr_right fun hh => ?_
  refine and_congr (bind_sectionAt?_fault hh fault) ?_
  refine forall_congr' fun earlier => forall_congr' fun hearlier => forall_congr' fun _ => ?_
  rw [Option.eq_none_iff_forall_ne_some]
  exact forall_congr' fun other => not_congr (bind_sectionAt?_fault hearlier other)

theorem endedBy_eq_error {α : Type} {fault? : Option DatabaseError} {a : α}
    {fault : DatabaseError} : endedBy fault? a = .error fault ↔ fault? = some fault := by
  cases fault? with
  | some other => simp [endedBy]
  | none => simp [endedBy]

/-- Strict reading refuses a file for the first line in which there is something to read, if that
stands before all headers. Otherwise it refuses it for the first section that has a fault, and all
sections before that one are accepted when they are read alone. -/
theorem parse_strict_error_iff (text : String) (fault : DatabaseError) :
    let lines := trimmedLines text
    (parse .strict text).result = .error fault ↔
      (∃ cs number, ((numberedFront lines).find? fun l => IsSignificant l.1) = some (cs, number) ∧
        fault = offence number cs) ∨
      (∀ l ∈ numberedFront lines, ¬ IsSignificant l.1) ∧
        ∃ h ∈ headers lines, FaultAt lines h fault ∧
          ∀ earlier ∈ headers lines, earlier < h →
            (∀ other, ¬ FaultAt lines earlier other) ∧
              ∃ d, (parse .strict (sectionText text earlier)).result = .ok d := by
  intro lines
  rw [result_parse, endedBy_eq_error, numberedLines_eq, fault?, front_fault]
  cases hfirst : (numberedFront lines).find? fun l => IsSignificant l.1 with
  | some l =>
    -- A line at the front is at fault, and no section has a say.
    have hsig : IsSignificant l.1 := by simpa using List.find?_some hfirst
    have hmem : l ∈ numberedFront lines := List.mem_of_find?_eq_some hfirst
    rw [Option.map_some, Option.some_or, Option.some.injEq]
    constructor
    · rintro rfl
      exact .inl ⟨l.1, l.2, rfl, rfl⟩
    · rintro (⟨cs, number, hl, rfl⟩ | ⟨hfront, -⟩)
      · cases hl
        rfl
      · exact absurd hsig (hfront l hmem)
  | none =>
    -- The front says nothing, so the first section with a fault decides.
    have hfront : ∀ l ∈ numberedFront lines, ¬ IsSignificant l.1 := by
      intro l hl
      simpa using List.find?_eq_none.mp hfirst l hl
    rw [Option.map_none, Option.none_or, sections_fault]
    constructor
    · rintro ⟨h, hh, hfault, hearlier⟩
      refine .inr ⟨hfront, h, hh, hfault, fun earlier hmem hlt => ⟨hearlier earlier hmem hlt, ?_⟩⟩
      obtain ⟨header, hheader, his⟩ := exists_of_mem_headers hmem
      exact (result_sectionText hheader his).mpr (hearlier earlier hmem hlt)
    · rintro (⟨cs, number, hl, -⟩ | ⟨-, h, hh, hfault, hearlier⟩)
      · cases hl
      · exact ⟨h, hh, hfault, fun earlier hmem hlt => (hearlier earlier hmem hlt).1⟩

/-- A wrong value of `ep_only` is the fault, although a later line gives another value, the section
has no signature, and the section behind has a fault of its own. -/
example :
    (parse .strict "[A]\nep_only = maybe\nep_only = true\n[B]\nstray\n").result =
      .error (.invalidEntryPointOnly 2 "maybe") := by
  cbv

end Files

end ByteScan.Database

import ByteScan.Proofs.Database.Sections

/-!
# What lenient reading means

The meaning of a file that is read leniently, said of its lines and their places and not by reading
them: which line ends the reading, where the sections are, and which value of a key counts in each.

* `Offends`: the line at a place cannot stand there.
* `headers`, `bodyOf`: where sections begin, and the lines of a section.
* `lastValue?`, `entryAt?`: the value of a key that counts, and the entry of a section.

Results:
1. `fault?_lenient`: the first line that offends is the fault.
2. `split_numberFrom`, `entriesIn_numberFrom`: the sections and their entries.
3. `length_entriesOf`: a section without an entry is noted as left out.
4. `parse_lenient_meaning`: all of it for a whole file.
-/

namespace ByteScan

/-- Whether an event says that an entry was left out. -/
def Event.isSkippedEntry : Event → Bool
  | .skippedEntry _ => true
  | _ => false

namespace Database

open Line

/-! ## Definitions -/

/-- Why a line is refused that is neither header nor setting, or that stands before all headers. -/
def Line.offence (number : Nat) (cs : List Char) : DatabaseError :=
  if '=' ∈ cs then .outsideSection number (keyOf cs) else .unexpectedLine number (String.ofList cs)

/-- A line gives a value to a key. -/
def Line.Sets (key : String) (cs : List Char) : Prop :=
  IsSignificant cs ∧ ¬ IsHeader cs ∧ '=' ∈ cs ∧ keyOf cs = key

instance (key : String) : DecidablePred (Line.Sets key) :=
  fun cs => inferInstanceAs
    (Decidable (IsSignificant cs ∧ ¬ IsHeader cs ∧ '=' ∈ cs ∧ keyOf cs = key))

/-- The value that the last line gives to a key. -/
def lastValue? (key : String) (body : List (List Char)) : Option String :=
  (body.filter (Line.Sets key)).getLast?.map valueOf

section Meaning

variable (lines : List (List Char))

/-- The line at this index cannot stand there: there is something to read in it and it is no header,
and it has no `=` or no header stands before it. -/
def Offends (i : Nat) : Prop :=
  ∃ cs ∈ lines[i]?, IsSignificant cs ∧ ¬ IsHeader cs ∧
    ('=' ∉ cs ∨ ∀ earlier ∈ lines.take i, ¬ IsHeader earlier)

instance : DecidablePred (Offends lines) :=
  fun i => inferInstanceAs (Decidable (∃ cs ∈ lines[i]?, IsSignificant cs ∧ ¬ IsHeader cs ∧
    ('=' ∉ cs ∨ ∀ earlier ∈ lines.take i, ¬ IsHeader earlier)))

/-- The indices of the headers. -/
def headers : List Nat :=
  (List.range lines.length).filter fun i => ∃ cs ∈ lines[i]?, IsHeader cs

/-- The lines behind an index, up to the next header. -/
def bodyOf (i : Nat) : List (List Char) :=
  (lines.drop (i + 1)).takeWhile (¬ IsHeader ·)

/-- The entry of the section whose header stands at this index. -/
def entryAt? (i : Nat) : Option Entry := do
  let header ← lines[i]?
  let text ← lastValue? "signature" (bodyOf lines i)
  let signature ← (Signature.ofText text).toOption
  return {
    name := nameOf header
    signature
    entryPointOnly := (lastValue? "ep_only" (bodyOf lines i)).any saysTrue
    line := i + 1 }

end Meaning

/-! ## 1. The first offence -/

section Offence

variable {lines rest : List (List Char)} {cs : List Char} {k : Nat}

theorem faultOutside?_ofTrimmed (number : Nat) (cs : List Char) :
    (ofTrimmed cs).faultOutside? number =
      if IsSignificant cs ∧ ¬ IsHeader cs then some (offence number cs) else none := by
  by_cases hsig : IsSignificant cs
  · by_cases hheader : IsHeader cs
    · rw [ofTrimmed_of_isHeader hheader, if_neg fun h => h.2 hheader, faultOutside?]
    · rw [if_pos ⟨hsig, hheader⟩, offence]
      by_cases hmem : '=' ∈ cs
      · rw [ofTrimmed_of_mem hsig hheader hmem, if_pos hmem, faultOutside?]
      · rw [ofTrimmed_of_not_mem hsig hheader hmem, if_neg hmem, faultOutside?]
  · rw [ofTrimmed_of_not_significant hsig, if_neg fun h => hsig h.1, faultOutside?]

theorem fault?_lenient_ofTrimmed (number : Nat) (cs : List Char) :
    Line.fault? .lenient number (ofTrimmed cs) =
      if IsSignificant cs ∧ ¬ IsHeader cs ∧ '=' ∉ cs then some (offence number cs) else none := by
  by_cases hsig : IsSignificant cs
  · by_cases hheader : IsHeader cs
    · rw [ofTrimmed_of_isHeader hheader, if_neg fun h => h.2.1 hheader, Line.fault?]
    · by_cases hmem : '=' ∈ cs
      · rw [ofTrimmed_of_mem hsig hheader hmem, if_neg fun h => h.2.2 hmem, Line.fault?, if_neg]
        exact fun h => Mode.noConfusion h.2.1
      · rw [ofTrimmed_of_not_mem hsig hheader hmem, if_pos ⟨hsig, hheader, hmem⟩, offence,
          if_neg hmem, Line.fault?]
  · rw [ofTrimmed_of_not_significant hsig, if_neg fun h => hsig h.1, Line.fault?]

theorem place_of_drop (h : lines.drop k = cs :: rest) :
    lines[k]? = some cs ∧ lines.drop (k + 1) = rest ∧
      lines.take (k + 1) = lines.take k ++ [cs] := by
  have hcs : lines[k]? = some cs := by rw [← List.head?_drop, h, List.head?_cons]
  refine ⟨hcs, ?_, ?_⟩
  · rw [← List.tail_drop, h, List.tail_cons]
  · rw [List.take_add_one, hcs, Option.toList_some]

theorem offends_iff (h : lines[k]? = some cs) :
    Offends lines k ↔ IsSignificant cs ∧ ¬ IsHeader cs ∧
      ('=' ∉ cs ∨ ∀ earlier ∈ lines.take k, ¬ IsHeader earlier) := by
  simp [Offends, h]

theorem lt_length_of_offends (h : Offends lines k) : k < lines.length := by
  obtain ⟨cs, hcs, -⟩ := h
  exact (List.getElem?_eq_some_iff.mp hcs).1

/-- The fault of the first line that offends, among `count` lines from index `k` on. -/
def firstFault? (lines : List (List Char)) (k count : Nat) : Option DatabaseError :=
  ((List.range' k count).find? fun i => Offends lines i).bind
    fun i => lines[i]?.map (offence (i + 1))

theorem firstFault?_succ (h : lines[k]? = some cs) (count : Nat) :
    firstFault? lines k (count + 1) =
      if Offends lines k then some (offence (k + 1) cs) else firstFault? lines (k + 1) count := by
  rw [firstFault?, List.range'_succ, List.find?_cons]
  split
  · next hoff => simp_all
  · next hoff =>
    rw [if_neg (by simpa using hoff)]
    rfl

/-- Behind a header only the lines that are neither header nor setting offend. -/
theorem findSome?_numberFrom (hdrop : lines.drop k = rest)
    (hheader : ∃ earlier ∈ lines.take k, IsHeader earlier) :
    (numberFrom k rest).findSome? (fun l => l.2.fault? .lenient l.1) =
      firstFault? lines k rest.length := by
  induction rest generalizing k with
  | nil => rfl
  | cons cs rest ih =>
    obtain ⟨hcs, hrest, htake⟩ := place_of_drop hdrop
    have hoff : Offends lines k ↔ IsSignificant cs ∧ ¬ IsHeader cs ∧ '=' ∉ cs := by
      rw [offends_iff hcs]
      obtain ⟨earlier, hmem, hearlier⟩ := hheader
      have hnot : ¬ ∀ earlier ∈ lines.take k, ¬ IsHeader earlier := fun h => h earlier hmem hearlier
      simp [hnot]
    rw [numberFrom_cons, List.findSome?_cons, fault?_lenient_ofTrimmed, List.length_cons,
      firstFault?_succ hcs]
    by_cases hthis : Offends lines k
    · rw [if_pos hthis, if_pos (hoff.mp hthis)]
    · rw [if_neg hthis, if_neg (mt hoff.mpr hthis)]
      refine ih hrest ?_
      obtain ⟨earlier, hmem, hearlier⟩ := hheader
      exact ⟨earlier, htake ▸ List.mem_append_left _ hmem, hearlier⟩

/-- Before the first header every line offends in which there is something to read. -/
theorem findSome?_split_numberFrom (hdrop : lines.drop k = rest)
    (hheader : ∀ earlier ∈ lines.take k, ¬ IsHeader earlier) :
    ((split (numberFrom k rest)).1.findSome? fun l => l.2.faultOutside? l.1).or
        ((numberFrom k rest).findSome? fun l => l.2.fault? .lenient l.1) =
      firstFault? lines k rest.length := by
  induction rest generalizing k with
  | nil => rfl
  | cons cs rest ih =>
    obtain ⟨hcs, hrest, htake⟩ := place_of_drop hdrop
    have hoff : Offends lines k ↔ IsSignificant cs ∧ ¬ IsHeader cs := by
      rw [offends_iff hcs]
      exact ⟨fun h => ⟨h.1, h.2.1⟩, fun h => ⟨h.1, h.2, .inr hheader⟩⟩
    by_cases hcsHeader : IsHeader cs
    · -- This is the first header. Nothing is left at the front, and the rest stands behind a header.
      have hnot : ¬ Offends lines k := fun h => (hoff.mp h).2 hcsHeader
      rw [numberFrom_cons, ofTrimmed_of_isHeader hcsHeader, split_header, List.findSome?_nil,
        Option.none_or, List.findSome?_cons, Line.fault?, List.length_cons, firstFault?_succ hcs,
        if_neg hnot]
      refine findSome?_numberFrom hrest ⟨cs, ?_, hcsHeader⟩
      exact htake ▸ List.mem_append_right _ (List.mem_singleton_self cs)
    · rw [numberFrom_cons, split_of_ne_header _ _ (ofTrimmed_ne_header hcsHeader),
        List.findSome?_cons, List.findSome?_cons, faultOutside?_ofTrimmed,
        fault?_lenient_ofTrimmed, List.length_cons, firstFault?_succ hcs]
      by_cases hthis : Offends lines k
      · rw [if_pos hthis, if_pos (hoff.mp hthis)]
        rfl
      · rw [if_neg hthis, if_neg (mt hoff.mpr hthis), if_neg fun h => hthis (hoff.mpr ⟨h.1, h.2.1⟩)]
        refine ih hrest fun earlier hmem => ?_
        rw [htake, List.mem_append, List.mem_singleton] at hmem
        cases hmem with
        | inl hbefore => exact hheader earlier hbefore
        | inr hthis => exact hthis ▸ hcsHeader

theorem fault?_of_faultOutside? {number : Nat} {line : Line}
    (h : line.faultOutside? number = none) : line.fault? .lenient number = none := by
  cases line with
  | ignored => rfl
  | header name => rfl
  | setting key value => cases h
  | stray content => cases h

theorem fault?_lenient (lines : List (List Char)) :
    fault? .lenient (numberFrom 0 lines) = firstFault? lines 0 lines.length := by
  have hsections : (Section.fault? .lenient) =
      fun s => s.body.findSome? fun l => l.2.fault? .lenient l.1 := by
    funext s
    rw [Section.fault?, if_neg Mode.noConfusion, Option.or_none]
  -- No headers are needed to look for faults in the sections: leniently a section has only the faults
  -- of its lines, and a line of the front that has such a fault has been met before.
  have hall := findSome?_split (f := fun l => l.2.fault? .lenient l.1) (numberFrom 0 lines)
    fun _ _ => rfl
  rw [fault?, ← findSome?_split_numberFrom List.drop_zero (by simp), ← hall, hsections]
  cases hfront : (split (numberFrom 0 lines)).1.findSome? fun l => l.2.faultOutside? l.1 with
  | some fault => rfl
  | none =>
    have hinside : ((split (numberFrom 0 lines)).1.findSome?
        fun l => l.2.fault? .lenient l.1) = none := by
      rw [List.findSome?_eq_none_iff] at hfront ⊢
      exact fun l hl => fault?_of_faultOutside? (hfront l hl)
    rw [hinside, Option.none_or, Option.none_or]

end Offence

/-! ## 2. Sections and their entries -/

section Values

variable (key : String) (cs : List Char) (body : List (List Char)) (index : Nat)

theorem value?_ofTrimmed :
    (ofTrimmed cs).value? key = if Line.Sets key cs then some (valueOf cs) else none := by
  by_cases hsig : IsSignificant cs
  · by_cases hheader : IsHeader cs
    · rw [ofTrimmed_of_isHeader hheader, if_neg fun h => h.2.1 hheader, Line.value?]
    · by_cases hmem : '=' ∈ cs
      · rw [ofTrimmed_of_mem hsig hheader hmem, Line.value?]
        by_cases hkey : keyOf cs = key
        · rw [if_pos hkey, if_pos ⟨hsig, hheader, hmem, hkey⟩]
        · rw [if_neg hkey, if_neg fun h => hkey h.2.2.2]
      · rw [ofTrimmed_of_not_mem hsig hheader hmem, if_neg fun h => hmem h.2.2.1, Line.value?]
  · rw [ofTrimmed_of_not_significant hsig, if_neg fun h => hsig h.1, Line.value?]

theorem lastValue?_cons :
    lastValue? key (cs :: body) = (lastValue? key body).or ((ofTrimmed cs).value? key) := by
  rw [lastValue?, lastValue?, value?_ofTrimmed, List.filter_cons]
  by_cases hsets : Line.Sets key cs
  · rw [if_pos (by simpa using hsets), if_pos hsets, List.getLast?_cons]
    cases (body.filter (Line.Sets key)).getLast? <;> rfl
  · rw [if_neg (by simpa using hsets), if_neg hsets, Option.or_none]

theorem signature_foldl (settings : Section.Settings) :
    ((numberFrom index body).foldl Section.Settings.after settings).signature.map Prod.fst =
      (lastValue? "signature" body).or (settings.signature.map Prod.fst) := by
  -- The settings are generalized: a later line takes the place of what they hold so far.
  induction body generalizing index settings with
  | nil => rfl
  | cons cs body ih =>
    rw [numberFrom_cons, List.foldl_cons, ih, lastValue?_cons, Option.or_assoc,
      Section.Settings.after]
    cases (ofTrimmed cs).value? "signature" <;> rfl

theorem entryPointOnly_foldl (settings : Section.Settings) :
    ((numberFrom index body).foldl Section.Settings.after settings).entryPointOnly =
      ((lastValue? "ep_only" body).map saysTrue).getD settings.entryPointOnly := by
  induction body generalizing index settings with
  | nil => rfl
  | cons cs body ih =>
    rw [numberFrom_cons, List.foldl_cons, ih, lastValue?_cons, Section.Settings.after]
    cases lastValue? "ep_only" body <;> rfl

end Values

section Sections

variable {lines rest : List (List Char)} {k : Nat}

/-- The section whose header stands at an index. -/
def sectionAt? (lines : List (List Char)) (i : Nat) : Option Section :=
  lines[i]?.map fun cs =>
    { name := nameOf cs, line := i + 1, body := numberFrom (i + 1) (bodyOf lines i) }

theorem split_numberFrom_snd (hdrop : lines.drop k = rest) :
    (split (numberFrom k rest)).2 =
      ((List.range' k rest.length).filter fun i => ∃ cs ∈ lines[i]?, IsHeader cs).filterMap
        (sectionAt? lines) := by
  induction rest generalizing k with
  | nil => rfl
  | cons cs rest ih =>
    obtain ⟨hcs, hrest, -⟩ := place_of_drop hdrop
    rw [numberFrom_cons, List.length_cons, List.range'_succ, List.filter_cons]
    by_cases hheader : IsHeader cs
    · rw [ofTrimmed_of_isHeader hheader, split_header, if_pos (by simpa [hcs] using hheader),
        ih hrest, split_numberFrom_fst, List.filterMap_cons, sectionAt?, hcs, bodyOf, hrest]
      rfl
    · rw [split_of_ne_header _ _ (ofTrimmed_ne_header hheader),
        if_neg (by simpa [hcs] using hheader), ih hrest]

theorem split_numberFrom (lines : List (List Char)) :
    (split (numberFrom 0 lines)).2 = (headers lines).filterMap (sectionAt? lines) := by
  rw [split_numberFrom_snd List.drop_zero, headers, List.range_eq_range']

theorem bind_sectionAt? (lines : List (List Char)) (i : Nat) :
    (sectionAt? lines i).bind Section.built? = entryAt? lines i := by
  rw [sectionAt?, entryAt?]
  cases lines[i]? with
  | none => rfl
  | some header =>
    have hsignature := signature_foldl (bodyOf lines i) (i + 1) {}
    have hflag := entryPointOnly_foldl (bodyOf lines i) (i + 1) {}
    rw [Option.map_some, Option.bind_some, Section.built?_eq, Section.made, hsignature, hflag]
    have hany : ((lastValue? "ep_only" (bodyOf lines i)).map saysTrue).getD false =
        (lastValue? "ep_only" (bodyOf lines i)).any saysTrue := by
      cases lastValue? "ep_only" (bodyOf lines i) <;> rfl
    rw [hany]
    cases lastValue? "signature" (bodyOf lines i) with
    | none => rfl
    | some text =>
      show Option.map _ (Signature.ofText text).toOption = (Signature.ofText text).toOption.bind _
      cases (Signature.ofText text).toOption <;> rfl

theorem entriesIn_numberFrom (lines : List (List Char)) :
    entriesIn (numberFrom 0 lines) = (headers lines).filterMap (entryAt? lines) := by
  rw [entriesIn, split_numberFrom, List.filterMap_filterMap]
  exact congrArg (List.filterMap · _) (funext (bind_sectionAt? lines))

end Sections

/-! ## 3. Entries that are left out -/

section Skips

variable {α β : Type}

/-- How many entries a reading notes as left out. -/
def skips {ε : Type} (x : Logged Event ε α) : Nat :=
  x.events.countP Event.isSkippedEntry

theorem skips_bind {ε : Type} {x : Logged Event ε α} {a : α} (h : x.result = .ok a)
    (f : α → Logged Event ε β) : skips (x >>= f) = skips x + skips (f a) := by
  rw [skips, Logged.bind_of_ok f h]
  exact List.countP_append

theorem skips_bind_eq_zero {ε : Type} {x : Logged Event ε α} {f : α → Logged Event ε β}
    (hx : skips x = 0) (hf : ∀ a, skips (f a) = 0) : skips (x >>= f) = 0 := by
  cases h : x.result with
  | error e =>
    rw [skips, Logged.bind_of_error f h]
    exact hx
  | ok a => rw [skips_bind h, hx, hf]

theorem skips_readLine (mode : Mode) (settings : Section.Settings) (number : Nat) (line : Line) :
    skips (Section.readLine mode settings number line) = 0 := by
  cases line with
  | ignored => rfl
  | header name => rfl
  | stray content => rfl
  | setting key value =>
    unfold Section.readLine
    split
    · rfl
    · rfl
    · rfl
    · rfl
    · split <;> rfl
    · rfl

theorem skips_readLines (mode : Mode) (settings : Section.Settings) (lines : List (Nat × Line)) :
    skips (Section.readLines mode settings lines) = 0 := by
  induction lines generalizing settings with
  | nil => rfl
  | cons l lines ih => exact skips_bind_eq_zero (skips_readLine mode settings l.1 l.2) ih

theorem skips_build (s : Section) (settings : Section.Settings) : skips (s.build settings) = 0 := by
  rw [skips, List.countP_eq_zero]
  intro e he
  obtain ⟨signature, rfl⟩ := Section.eq_built_of_mem_events_build he
  exact Bool.false_ne_true

theorem skips_readEntry {s : Section} {entry : Option Entry}
    (h : (s.readEntry .lenient).result = .ok entry) :
    entry.toList.length + skips (s.readEntry .lenient) = 1 := by
  have hlines := skips_readLines .lenient {} s.body
  rw [Section.result_readEntry, endedBy_eq_ok] at h
  obtain ⟨hfault, hentry⟩ := h
  have hsettings : (s.settings .lenient).result = .ok s.made := by
    rw [Section.settings, Section.result_readLines, endedBy_eq_ok]
    exact ⟨(Option.or_eq_none_iff.mp hfault).1, rfl⟩
  have hbuild := skips_build s s.made
  unfold Section.readEntry
  rw [skips_bind hsettings, Section.settings, hlines, ← hentry, Section.built?]
  cases h : (s.build s.made).result with
  | ok e =>
    simp only [h]
    show 1 + (0 + skips (s.build s.made)) = 1
    rw [hbuild]
  | error fault =>
    simp only [h]
    show 0 + (0 + ((s.build s.made).events ++ [Event.skippedEntry fault]).countP _) = 1
    rw [List.countP_append]
    show 0 + (0 + (skips (s.build s.made) + 1)) = 1
    rw [hbuild]

/-- Every section either has an entry or is noted as left out. -/
theorem length_entriesOf {sections : List Section} {entries : List Entry}
    (h : (entriesOf .lenient sections).result = .ok entries) :
    entries.length + skips (entriesOf .lenient sections) = sections.length := by
  induction sections generalizing entries with
  | nil =>
    cases h
    rfl
  | cons s sections ih =>
    rw [entriesOf] at h ⊢
    cases hs : (s.readEntry .lenient).result with
    | error fault =>
      rw [Logged.bind_of_error _ hs] at h
      cases h
    | ok entry =>
      rw [Logged.bind_of_ok _ hs] at h
      cases hrest : (entriesOf .lenient sections).result with
      | error fault =>
        rw [Logged.bind_of_error _ hrest] at h
        cases h
      | ok rest =>
        rw [Logged.bind_of_ok _ hrest] at h
        -- The section makes its entry or is skipped, and so does each of the others.
        have hentry := skips_readEntry hs
        have hrestLength := ih hrest
        obtain rfl : entry.toList ++ rest = entries := Except.ok.inj h
        rw [skips_bind hs, skips_bind hrest, List.length_append, List.length_cons]
        show _ + (_ + (_ + 0)) = _
        omega

end Skips

/-! ## 4. Files -/

section Files

variable {lines : List (List Char)}

theorem firstFault?_eq_none :
    firstFault? lines 0 lines.length = none ↔ ∀ i, ¬ Offends lines i := by
  rw [firstFault?, ← List.range_eq_range']
  cases hfind : (List.range lines.length).find? fun i => Offends lines i with
  | none =>
    have hnone : ∀ i, ¬ Offends lines i := fun i hoff => by
      simpa [hoff] using List.find?_range_eq_none.mp hfind i (lt_length_of_offends hoff)
    exact ⟨fun _ => hnone, fun _ => rfl⟩
  | some i =>
    have hoff : Offends lines i := by simpa using List.find?_some hfind
    have hlt := lt_length_of_offends hoff
    refine ⟨fun h => ?_, fun h => absurd hoff (h i)⟩
    rw [Option.bind_some, List.getElem?_eq_getElem hlt] at h
    cases h

theorem firstFault?_eq_some {i : Nat} {cs : List Char} (hcs : lines[i]? = some cs)
    (hoff : Offends lines i) (hfirst : ∀ j < i, ¬ Offends lines j) :
    firstFault? lines 0 lines.length = some (offence (i + 1) cs) := by
  have hfind : ((List.range lines.length).find? fun i => Offends lines i) = some i := by
    rw [List.find?_range_eq_some]
    exact ⟨by simpa using hoff, List.mem_range.mpr (lt_length_of_offends hoff),
      fun j hj => by simpa using hfirst j hj⟩
  rw [firstFault?, ← List.range_eq_range', hfind, Option.bind_some, hcs]
  rfl

theorem length_split_numberFrom (lines : List (List Char)) :
    (split (numberFrom 0 lines)).2.length = (headers lines).length := by
  rw [split_numberFrom, List.filterMap_length_eq_length]
  intro i hi
  obtain ⟨-, cs, hcs, -⟩ : i < lines.length ∧ ∃ cs ∈ lines[i]?, IsHeader cs := by
    simpa [headers] using hi
  rw [sectionAt?, Option.mem_def.mp hcs]
  rfl

section Read

variable {text : String} (h : fault? .lenient (numberedLines text) = none)
include h

theorem result_entriesOf_split :
    (entriesOf .lenient (split (numberedLines text)).2).result =
      .ok (entriesIn (numberedLines text)) := by
  rw [result_entriesOf, (Option.or_eq_none_iff.mp h).2]
  rfl

theorem skips_parse :
    skips (parse .lenient text) = skips (entriesOf .lenient (split (numberedLines text)).2) := by
  rw [parse_of_front .lenient (Option.or_eq_none_iff.mp h).1, skips_bind (result_entriesOf_split h)]
  rfl

end Read

/-- What a file means when it is read leniently. It is refused exactly if some line offends, and
then for the first such line. Otherwise each section has the entry that its last signature makes, if
that is a signature, and for each other section one note says that it is left out. -/
theorem parse_lenient_meaning (text : String) :
    let lines := trimmedLines text
    let reading := parse .lenient text
    ((∃ fault, reading.result = .error fault) ↔ ∃ i, Offends lines i) ∧
      (∀ i cs, lines[i]? = some cs → Offends lines i → (∀ j < i, ¬ Offends lines j) →
        reading.result = .error (offence (i + 1) cs)) ∧
      ((∀ i, ¬ Offends lines i) →
        reading.result = .ok ⟨(headers lines).filterMap (entryAt? lines)⟩ ∧
          (headers lines).length = ((headers lines).filterMap (entryAt? lines)).length +
            reading.events.countP Event.isSkippedEntry) := by
  intro lines reading
  have hresult : reading.result =
      endedBy (firstFault? lines 0 lines.length) ⟨(headers lines).filterMap (entryAt? lines)⟩ := by
    rw [← fault?_lenient, ← entriesIn_numberFrom, ← numberedLines_eq]
    exact result_parse .lenient text
  refine ⟨?_, fun i cs hcs hoff hfirst => ?_, fun hnone => ⟨?_, ?_⟩⟩
  · rw [hresult, ← not_iff_not, not_exists, not_exists, ← firstFault?_eq_none]
    cases firstFault? lines 0 lines.length <;> simp [endedBy]
  · rw [hresult, firstFault?_eq_some hcs hoff hfirst]
    rfl
  · rw [hresult, firstFault?_eq_none.mpr hnone]
    rfl
  · have hfault : fault? .lenient (numberedLines text) = none := by
      rw [numberedLines_eq, fault?_lenient, firstFault?_eq_none]
      exact hnone
    have hlength := length_entriesOf (result_entriesOf_split hfault)
    rw [← skips_parse hfault, numberedLines_eq, length_split_numberFrom, entriesIn_numberFrom]
      at hlength
    exact hlength.symm

/-- A line without an `=` ends the reading. Without it both sections are read, and the one that has
no signature is left out. -/
theorem parse_lenient_A_B :
    (parse .lenient "[A]\nsignature = 90\nstray\n").result = .error (.unexpectedLine 3 "stray") ∧
      (parse .lenient "[A]\nsignature = 90\n[B]\nep_only = true\n").result =
        .ok ⟨[⟨"A", ⟨[.exact 0x90], 0, rfl⟩, false, 1⟩]⟩ ∧
      (parse .lenient "[A]\nsignature = 90\n[B]\nep_only = true\n").events.countP
        Event.isSkippedEntry = 1 := by
  have hstray := (parse_lenient_meaning "[A]\nsignature = 90\nstray\n").2.1
  have hread := (parse_lenient_meaning "[A]\nsignature = 90\n[B]\nep_only = true\n").2.2
  obtain ⟨hentries, hcount⟩ := hread (firstFault?_eq_none.mp (by decide))
  refine ⟨hstray 2 "stray".toList (by decide) (by decide) (by decide), hentries, ?_⟩
  exact Nat.add_left_cancel (n := 1) hcount.symm

end Files

end Database

end ByteScan

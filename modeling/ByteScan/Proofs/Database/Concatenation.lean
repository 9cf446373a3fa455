import ByteScan.Proofs.Database.Sections
import ByteScan.Proofs.Text.Lines

/-!
# Database files one after another

A file that begins with a header, perhaps behind blank lines and comments, can be put behind another
one. The second file then says what it says alone, on lines that stand further down, and a fault of
the first file still comes before all faults of the second.

* `saysSomething`, `Section.significant`: leaving out the lines that say nothing.
* `DatabaseError.moved`, `Entry.moved`, `movedLines`, `Section.moved`: what stands further down.

Results:
1. `fault?_significant`, `entriesIn_significant`: lines that say nothing change nothing.
2. `fault?_moved`, `entriesIn_moved`: lines that stand further down.
3. `fault?_append`, `entriesIn_append`: lines behind which a header comes.
4. `parse_append`: files.
-/

namespace ByteScan

/-! ## Definitions -/

/-- The same fault in a file with `n` more lines in front. -/
def DatabaseError.moved (n : Nat) : DatabaseError → DatabaseError
  | .outsideSection line key => .outsideSection (line + n) key
  | .unexpectedLine line content => .unexpectedLine (line + n) content
  | .invalidEntryPointOnly line value => .invalidEntryPointOnly (line + n) value
  | .missingSignature name line => .missingSignature name (line + n)
  | .signature name line cause => .signature name (line + n) cause

namespace Database

/-- The same entry from a file with `n` more lines in front. -/
def Entry.moved (n : Nat) (e : Entry) : Entry :=
  { e with line := e.line + n }

/-- The same lines in a file with `n` more lines in front. -/
def movedLines (n : Nat) (lines : List (Nat × Line)) : List (Nat × Line) :=
  lines.map fun l => (l.1 + n, l.2)

/-- Whether a line says anything. -/
def saysSomething (l : Nat × Line) : Bool :=
  l.2 ≠ .ignored

namespace Section

/-- The same settings from lines that stand `n` lines further down. -/
def Settings.moved (n : Nat) (settings : Settings) : Settings :=
  { settings with signature := settings.signature.map fun last => (last.1, last.2 + n) }

/-- The same section in a file with `n` more lines in front. -/
def moved (n : Nat) (s : Section) : Section :=
  { s with line := s.line + n, body := movedLines n s.body }

/-- A section without the lines that say nothing. -/
def significant (s : Section) : Section :=
  { s with body := s.body.filter saysSomething }

end Section

/-! ## 1. Lines that say nothing -/

section Significant

variable (number : Nat) {line : Line} (lines : List (Nat × Line))

theorem filter_ignored :
    ((number, Line.ignored) :: lines).filter saysSomething = lines.filter saysSomething :=
  rfl

theorem filter_of_ne_ignored (h : line ≠ .ignored) :
    ((number, line) :: lines).filter saysSomething =
      (number, line) :: lines.filter saysSomething :=
  List.filter_cons_of_pos (by simpa [saysSomething] using h)

theorem findSome?_filter_saysSomething {β : Type} {f : Nat × Line → Option β}
    (hf : ∀ number, f (number, .ignored) = none) :
    (lines.filter saysSomething).findSome? f = lines.findSome? f := by
  induction lines with
  | nil => rfl
  | cons l lines ih =>
    obtain ⟨number, line⟩ := l
    by_cases hline : line = .ignored
    · subst hline
      rw [filter_ignored, ih, List.findSome?_cons, hf]
    · rw [filter_of_ne_ignored number lines hline, List.findSome?_cons, List.findSome?_cons, ih]

theorem foldl_filter_saysSomething (settings : Section.Settings) :
    (lines.filter saysSomething).foldl Section.Settings.after settings =
      lines.foldl Section.Settings.after settings := by
  induction lines generalizing settings with
  | nil => rfl
  | cons l lines ih =>
    obtain ⟨number, line⟩ := l
    by_cases hline : line = .ignored
    · subst hline
      exact ih settings
    · rw [filter_of_ne_ignored number lines hline, List.foldl_cons, List.foldl_cons, ih]

theorem split_filter_saysSomething :
    split (lines.filter saysSomething) =
      ((split lines).1.filter saysSomething, (split lines).2.map Section.significant) := by
  induction lines using split_induction with
  | nil => rfl
  | header number name lines ih =>
    rw [filter_of_ne_ignored number lines Line.noConfusion, split_header, split_header, ih]
    rfl
  | other number line lines hne ih =>
    rw [split_of_ne_header number lines hne]
    by_cases hline : line = .ignored
    · subst hline
      rw [filter_ignored, filter_ignored, ih]
    · rw [filter_of_ne_ignored number lines hline, split_of_ne_header number _ hne, ih,
        filter_of_ne_ignored number _ hline]

namespace Section

theorem build_significant (s : Section) :
    s.significant.build s.significant.made = s.build s.made := by
  rw [made, significant, foldl_filter_saysSomething]
  rfl

theorem built?_significant (s : Section) : s.significant.built? = s.built? := by
  rw [built?, build_significant, built?]

theorem fault?_significant (mode : Mode) (s : Section) :
    s.significant.fault? mode = s.fault? mode := by
  rw [Section.fault?, Section.fault?, buildFault?, build_significant, buildFault?, significant,
    findSome?_filter_saysSomething s.body fun _ => rfl]

end Section

theorem fault?_significant (mode : Mode) :
    fault? mode (lines.filter saysSomething) = fault? mode lines := by
  rw [fault?, fault?, split_filter_saysSomething, findSome?_filter_saysSomething _ fun _ => rfl,
    List.findSome?_map]
  exact congrArg (fun f => Option.or _ ((split lines).2.findSome? f))
    (funext (Section.fault?_significant mode))

theorem entriesIn_significant : entriesIn (lines.filter saysSomething) = entriesIn lines := by
  rw [entriesIn, split_filter_saysSomething, List.filterMap_map]
  exact congrArg (List.filterMap · (split lines).2) (funext Section.built?_significant)

end Significant

/-! ## 2. Lines further down -/

section Moved

variable (n : Nat) (lines : List (Nat × Line))

theorem movedLines_cons (number : Nat) (line : Line) :
    movedLines n ((number, line) :: lines) = (number + n, line) :: movedLines n lines :=
  rfl

theorem split_movedLines :
    split (movedLines n lines) =
      (movedLines n (split lines).1, (split lines).2.map (Section.moved n)) := by
  induction lines using split_induction with
  | nil => rfl
  | header number name lines ih =>
    rw [movedLines_cons, split_header, split_header, ih]
    rfl
  | other number line lines hne ih =>
    rw [movedLines_cons, split_of_ne_header _ _ hne, split_of_ne_header number lines hne, ih]
    rfl

theorem faultOutside?_moved (number : Nat) (line : Line) :
    line.faultOutside? (number + n) = (line.faultOutside? number).map (DatabaseError.moved n) := by
  cases line <;> rfl

theorem Line.fault?_moved (mode : Mode) (number : Nat) (line : Line) :
    line.fault? mode (number + n) = (line.fault? mode number).map (DatabaseError.moved n) := by
  cases line with
  | ignored => rfl
  | header name => rfl
  | stray content => rfl
  | setting key value =>
    rw [Line.fault?, Line.fault?]
    split <;> rfl

theorem findSome?_moved {α : Type} {f g : α → Option DatabaseError}
    (h : ∀ a, g a = (f a).map (DatabaseError.moved n)) (as : List α) :
    as.findSome? g = (as.findSome? f).map (DatabaseError.moved n) := by
  rw [List.map_findSome?]
  exact congrArg (List.findSome? · as) (funext h)

namespace Section

theorem foldl_movedLines (settings : Settings) :
    (movedLines n lines).foldl Settings.after (settings.moved n) =
      (lines.foldl Settings.after settings).moved n := by
  induction lines generalizing settings with
  | nil => rfl
  | cons l lines ih =>
    obtain ⟨number, line⟩ := l
    have hafter : (settings.moved n).after (number + n, line) =
        (settings.after (number, line)).moved n := by
      rw [Settings.after, Settings.after, Settings.moved]
      cases line.value? "signature" <;> rfl
    rw [movedLines_cons, List.foldl_cons, List.foldl_cons, hafter, ih]

theorem made_moved (s : Section) : (s.moved n).made = s.made.moved n :=
  foldl_movedLines n s.body {}

theorem buildFault?_moved (s : Section) :
    (s.moved n).buildFault? = s.buildFault?.map (DatabaseError.moved n) := by
  rw [buildFault?_eq, buildFault?_eq, made_moved, Settings.moved]
  cases s.made.signature with
  | none => rfl
  | some last =>
    simp only [Option.map_some]
    cases Signature.ofText last.1 <;> rfl

theorem built?_moved (s : Section) : (s.moved n).built? = s.built?.map (Entry.moved n) := by
  rw [built?_eq, built?_eq, made_moved, Settings.moved, Option.map_map, Option.map_map]
  rfl

theorem fault?_moved (mode : Mode) (s : Section) :
    (s.moved n).fault? mode = (s.fault? mode).map (DatabaseError.moved n) := by
  have hlines : ((s.moved n).body.findSome? fun l => l.2.fault? mode l.1) =
      (s.body.findSome? fun l => l.2.fault? mode l.1).map (DatabaseError.moved n) := by
    rw [moved, movedLines, List.findSome?_map]
    exact findSome?_moved n (fun l => Line.fault?_moved n mode l.1 l.2) s.body
  rw [Section.fault?, Section.fault?, hlines, Option.map_or, buildFault?_moved]
  split <;> rfl

end Section

theorem fault?_moved (mode : Mode) :
    fault? mode (movedLines n lines) = (fault? mode lines).map (DatabaseError.moved n) := by
  rw [fault?, fault?, split_movedLines, Option.map_or, movedLines, List.findSome?_map,
    List.findSome?_map]
  refine congrArg₂ Option.or ?_ ?_
  · exact findSome?_moved n (fun l => faultOutside?_moved n l.1 l.2) (split lines).1
  · exact findSome?_moved n (Section.fault?_moved n mode) (split lines).2

theorem entriesIn_moved :
    entriesIn (movedLines n lines) = (entriesIn lines).map (Entry.moved n) := by
  rw [entriesIn, entriesIn, split_movedLines, List.filterMap_map, List.map_filterMap]
  exact congrArg (List.filterMap · (split lines).2) (funext (Section.built?_moved n))

end Moved

/-! ## 3. Lines behind lines -/

section Append

variable {more : List (Nat × Line)}

theorem split_append (h : (split more).1 = []) (lines : List (Nat × Line)) :
    split (lines ++ more) = ((split lines).1, (split lines).2 ++ (split more).2) := by
  induction lines using split_induction with
  | nil => exact Prod.ext h rfl
  | header number name lines ih =>
    rw [List.cons_append, split_header, split_header, ih]
    rfl
  | other number line lines hne ih =>
    rw [List.cons_append, split_of_ne_header _ _ hne, split_of_ne_header _ _ hne, ih]

variable (h : (split more).1.filter saysSomething = [])
include h

theorem split_significant_append (lines : List (Nat × Line)) :
    split ((lines ++ more).filter saysSomething) =
      ((split (lines.filter saysSomething)).1,
        (split (lines.filter saysSomething)).2 ++ (split (more.filter saysSomething)).2) := by
  rw [List.filter_append, split_append]
  rw [split_filter_saysSomething, h]

theorem fault?_append (mode : Mode) (lines : List (Nat × Line)) :
    fault? mode (lines ++ more) = (fault? mode lines).or (fault? mode more) := by
  -- Lines that say nothing may stand before the first header of `more`. In `lines ++ more` they fall
  -- to the last section of `lines`, so nothing can be said of cutting before they are left out.
  have hmore : (split (more.filter saysSomething)).1 = [] := by
    rw [split_filter_saysSomething, h]
  rw [← fault?_significant (lines ++ more), ← fault?_significant lines, ← fault?_significant more,
    fault?, fault?, fault?, split_significant_append h, hmore, List.findSome?_append,
    Option.or_assoc]
  rfl

theorem entriesIn_append (lines : List (Nat × Line)) :
    entriesIn (lines ++ more) = entriesIn lines ++ entriesIn more := by
  rw [← entriesIn_significant (lines ++ more), ← entriesIn_significant lines,
    ← entriesIn_significant more, entriesIn, split_significant_append h, List.filterMap_append]
  rfl

end Append

/-! ## 4. Files one after another -/

theorem numberFrom_eq_moved (n index : Nat) (lines : List (List Char)) :
    numberFrom (index + n) lines = movedLines n (numberFrom index lines) := by
  induction lines generalizing index with
  | nil => rfl
  | cons cs lines ih =>
    rw [numberFrom_cons, numberFrom_cons, Nat.add_right_comm index n 1, ih]
    rfl

theorem numberedLines_append {text : String}
    (h : text.toList = [] ∨ text.toList.getLast? = some '\n') (more : String) :
    numberedLines (text ++ more) =
      numberedLines text ++ movedLines (Text.lines text.toList).length (numberedLines more) := by
  have htrimmed : trimmedLines (text ++ more) = trimmedLines text ++ trimmedLines more := by
    rw [trimmedLines, String.toList_append, Text.lines_append h, List.map_append]
    rfl
  rw [numberedLines_eq, numberedLines_eq, numberedLines_eq, htrimmed, numberFrom_append,
    ← numberFrom_eq_moved, trimmedLines, List.length_map]

/-- If the first line in which there is something to read is a header, then the lines before the
first header say nothing. -/
theorem front_says_nothing {lines : List (List Char)}
    (h : ∀ cs ∈ lines.find? fun cs => Line.IsSignificant cs, Line.IsHeader cs) (index : Nat) :
    (split (numberFrom index lines)).1.filter saysSomething = [] := by
  induction lines generalizing index with
  | nil => rfl
  | cons cs lines ih =>
    rw [numberFrom_cons]
    rw [List.find?_cons] at h
    by_cases hsig : Line.IsSignificant cs
    · have hheader : Line.IsHeader cs := h cs (by simp [hsig])
      rw [Line.ofTrimmed_of_isHeader hheader, split_header]
      rfl
    · -- `find?` goes on behind a line that says nothing, and so do the lines before the first header.
      rw [Line.ofTrimmed_of_not_significant hsig, split_of_ne_header _ _ fun _ => Line.noConfusion,
        filter_ignored]
      exact ih (by simpa [hsig] using h) (index + 1)

/-- Two files, one after another. The first ends where a line ends, and in the second nothing but
blank lines and comments stands before the first header. Then the first file is read as if it were
alone, and so is the second, if the first is not refused; only its lines stand further down. -/
theorem parse_append (mode : Mode) {text more : String}
    (htext : text.toList = [] ∨ text.toList.getLast? = some '\n')
    (hmore : ∀ cs ∈ (trimmedLines more).find? fun cs => Line.IsSignificant cs, Line.IsHeader cs) :
    let n := (Text.lines text.toList).length
    (parse mode (text ++ more)).result =
      match (parse mode text).result, (parse mode more).result with
      | .error fault, _ => .error fault
      | .ok _, .error fault => .error (fault.moved n)
      | .ok d, .ok d' => .ok ⟨d.entries ++ d'.entries.map (Entry.moved n)⟩ := by
  intro n
  have hfront : (split (movedLines n (numberedLines more))).1.filter saysSomething = [] := by
    rw [numberedLines_eq, ← numberFrom_eq_moved]
    exact front_says_nothing hmore _
  rw [result_parse, result_parse, result_parse, numberedLines_append htext, fault?_append hfront,
    entriesIn_append hfront, fault?_moved, entriesIn_moved]
  cases fault? mode (numberedLines text) with
  | some fault => rfl
  | none =>
    cases fault? mode (numberedLines more) with
    | some fault => rfl
    | none => rfl

/-- The second section is found on the line where it stands in the whole file, and so is the fault
of its signature. -/
theorem parse_append_A_B :
    (parse .strict ("[A]\nsignature = 90\n" ++ "; note\n[B]\nsignature = C3\n")).result =
        .ok ⟨[⟨"A", ⟨[.exact 0x90], 0, rfl⟩, false, 1⟩, ⟨"B", ⟨[.exact 0xC3], 0, rfl⟩, false, 4⟩]⟩ ∧
      (parse .strict ("[A]\nsignature = 90\n" ++ "; note\n[B]\nsignature = ?\n")).result =
        .error (.signature "B" 5 .noAnchor) := by
  constructor
  · rw [parse_append .strict (by decide) (by decide)]
    rfl
  · rw [parse_append .strict (by decide) (by decide)]
    rfl

end Database

end ByteScan

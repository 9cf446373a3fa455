import ByteScan.Database.Parser
import ByteScan.Proofs.Database.Lines

/-!
# What reading a database comes to

Reading goes from line to line and from section to section, and keeps settings and a log on its way.
Its result needs none of this: it is the first fault, if there is one, and otherwise what the
sections say. Here are the faults and the entries of a list of lines, as functions of the lines
alone.

* `Line.value?`, `Line.fault?`: what a line gives to a key, and why it ends the reading.
* `Section.made`: the settings that the lines of a section make.
* `Section.fault?`, `Section.built?`: why a section ends the reading, and its entry.
* `fault?`, `entriesIn`: the same for the lines of a whole file.

Results:
1. `split_header`, `split_of_ne_header`, `split_of_forall_ne_header`, `findSome?_split`: how lines
   are cut at the headers.
2. `Section.result_readLines`: the settings of a section.
3. `Section.result_readEntry`, `result_entriesOf`: the entries of sections.
4. `result_parse`: a whole file.
-/

namespace ByteScan.Database

/-! ## Definitions -/

/-- The result of a reading that comes to a value unless there is a fault. -/
def endedBy {α : Type} (fault? : Option DatabaseError) (value : α) : Except DatabaseError α :=
  match fault? with
  | some fault => .error fault
  | none => .ok value

/-- Whether a value of `ep_only` says true, in any case of its letters. -/
def saysTrue (value : String) : Bool :=
  value.map Char.toLower = "true"

/-- Whether a value of `ep_only` says false. -/
def saysFalse (value : String) : Bool :=
  value.map Char.toLower = "false"

namespace Line

/-- The value that a line gives to a key. -/
def value? (key : String) : Line → Option String
  | .setting k value => if k = key then some value else none
  | .ignored | .header _ | .stray _ => none

/-- Why a line cannot stand in a section. -/
def fault? (mode : Mode) (number : Nat) : Line → Option DatabaseError
  | .stray content => some (.unexpectedLine number content)
  | .setting key value =>
    if key = "ep_only" ∧ mode = .strict ∧ saysTrue value = false ∧ saysFalse value = false then
      some (.invalidEntryPointOnly number value)
    else none
  | .ignored | .header _ => none

end Line

namespace Section

/-- The settings after a line that has no fault. -/
def Settings.after (settings : Settings) (l : Nat × Line) : Settings where
  signature := ((l.2.value? "signature").map (·, l.1)).or settings.signature
  entryPointOnly := ((l.2.value? "ep_only").map saysTrue).getD settings.entryPointOnly

/-- The settings that the lines of a section make. -/
def made (s : Section) : Settings :=
  s.body.foldl Settings.after {}

/-- The entry of a section, if its last signature is one. -/
def built? (s : Section) : Option Entry :=
  (s.build s.made).result.toOption

/-- Why a section has no entry. -/
def buildFault? (s : Section) : Option DatabaseError :=
  match (s.build s.made).result with
  | .error fault => some fault
  | .ok _ => none

/-- Why a section ends the reading. Its lines come before its entry. -/
def fault? (mode : Mode) (s : Section) : Option DatabaseError :=
  (s.body.findSome? fun l => l.2.fault? mode l.1).or
    (if mode = .strict then s.buildFault? else none)

end Section

/-- Why the lines of a file are refused. The lines that belong to no section come first. -/
def fault? (mode : Mode) (lines : List (Nat × Line)) : Option DatabaseError :=
  ((split lines).1.findSome? fun l => l.2.faultOutside? l.1).or
    ((split lines).2.findSome? (Section.fault? mode))

/-- The entries of the sections in the lines of a file. -/
def entriesIn (lines : List (Nat × Line)) : List Entry :=
  (split lines).2.filterMap Section.built?

/-! ## 1. Cutting at headers -/

section Split

variable (number : Nat) {line : Line} (lines : List (Nat × Line))

theorem split_header (name : String) :
    split ((number, .header name) :: lines) =
      ([], ⟨name, number, (split lines).1⟩ :: (split lines).2) :=
  rfl

theorem split_of_ne_header (h : ∀ name, line ≠ .header name) :
    split ((number, line) :: lines) = ((number, line) :: (split lines).1, (split lines).2) := by
  cases line with
  | header name => exact absurd rfl (h name)
  | ignored => rfl
  | setting key value => rfl
  | stray content => rfl

/-- Induction on lines that are to be cut: a line is a header or not. -/
theorem split_induction {motive : List (Nat × Line) → Prop} (nil : motive [])
    (header : ∀ number name lines, motive lines → motive ((number, .header name) :: lines))
    (other : ∀ number line lines, (∀ name, line ≠ .header name) → motive lines →
      motive ((number, line) :: lines))
    (lines : List (Nat × Line)) : motive lines := by
  induction lines with
  | nil => exact nil
  | cons l lines ih =>
    obtain ⟨number, line⟩ := l
    cases line with
    | header name => exact header number name lines ih
    | ignored => exact other number _ lines (fun _ => Line.noConfusion) ih
    | setting key value => exact other number _ lines (fun _ => Line.noConfusion) ih
    | stray content => exact other number _ lines (fun _ => Line.noConfusion) ih

theorem findSome?_split {β : Type} {f : Nat × Line → Option β}
    (hf : ∀ number name, f (number, .header name) = none) :
    ((split lines).1.findSome? f).or ((split lines).2.findSome? fun s => s.body.findSome? f) =
      lines.findSome? f := by
  induction lines using split_induction with
  | nil => rfl
  | header number name lines ih =>
    simp only [split_header, List.findSome?_cons, List.findSome?_nil, hf, ← ih, Option.none_or]
    cases (split lines).1.findSome? f <;> rfl
  | other number line lines hne ih =>
    rw [split_of_ne_header number lines hne, List.findSome?_cons, List.findSome?_cons, ← ih]
    cases f (number, line) <;> rfl

theorem split_of_forall_ne_header {lines : List (Nat × Line)}
    (h : ∀ l ∈ lines, ∀ name, l.2 ≠ .header name) : split lines = (lines, []) := by
  induction lines with
  | nil => rfl
  | cons l lines ih =>
    obtain ⟨hl, hlines⟩ := List.forall_mem_cons.mp h
    rw [split_of_ne_header l.1 lines hl, ih hlines]

theorem split_numberFrom_fst (k : Nat) (rest : List (List Char)) :
    (split (numberFrom k rest)).1 = numberFrom k (rest.takeWhile (¬ Line.IsHeader ·)) := by
  induction rest generalizing k with
  | nil => rfl
  | cons cs rest ih =>
    rw [numberFrom_cons, List.takeWhile_cons]
    by_cases hheader : Line.IsHeader cs
    · rw [Line.ofTrimmed_of_isHeader hheader, split_header, if_neg (by simpa using hheader)]
      rfl
    · rw [split_of_ne_header _ _ (Line.ofTrimmed_ne_header hheader),
        if_pos (by simpa using hheader), numberFrom_cons, ih]

end Split

/-! ## 2. Settings -/

section EndedBy

variable {α β : Type}

theorem endedBy_none_bind (a : α) (f : α → Except DatabaseError β) : endedBy none a >>= f = f a :=
  rfl

theorem endedBy_eq_ok {fault? : Option DatabaseError} {a b : α} :
    endedBy fault? a = .ok b ↔ fault? = none ∧ a = b := by
  cases fault? with
  | some fault => simp [endedBy]
  | none => simp [endedBy]

end EndedBy

namespace Section

section ReadLine

variable (mode : Mode) (settings : Settings) (number : Nat)

theorem readLine_flag (value : String) :
    readLine mode settings number (.setting "ep_only" value) =
      if saysTrue value then return { settings with entryPointOnly := true }
      else if saysFalse value then return { settings with entryPointOnly := false }
      else
        match mode with
        | .strict => .fail (.invalidEntryPointOnly number value)
        | .lenient => do
          .note (.assumedFalse (.invalidEntryPointOnly number value))
          return { settings with entryPointOnly := false } := by
  simp only [readLine]
  split
  · next heq => simp [saysTrue, heq]
  · next heq => simp [saysTrue, saysFalse, heq]
  · next htrue hfalse => rw [if_neg (by simpa [saysTrue]), if_neg (by simpa [saysFalse])]
  · next htrue hfalse => rw [if_neg (by simpa [saysTrue]), if_neg (by simpa [saysFalse])]

theorem readLine_other {key : String} (hsignature : key ≠ "signature") (hflag : key ≠ "ep_only")
    (value : String) :
    readLine mode settings number (.setting key value) = (do
      .note (.ignoredKey number key)
      return settings) := by
  unfold readLine
  split <;> simp_all

theorem result_readLine (line : Line) :
    (readLine mode settings number line).result =
      endedBy (line.fault? mode number) (settings.after (number, line)) := by
  cases line with
  | ignored => rfl
  | header name => rfl
  | stray content => rfl
  | setting key value =>
    by_cases hsignature : key = "signature"
    · subst hsignature
      rfl
    by_cases hflag : key = "ep_only"
    · subst hflag
      rw [readLine_flag, Line.fault?]
      cases htrue : saysTrue value with
      | true => simp [endedBy, Settings.after, Line.value?, htrue, pure]
      | false =>
        cases hfalse : saysFalse value with
        | true => simp [endedBy, Settings.after, Line.value?, htrue, pure]
        | false =>
          cases mode with
          | strict => simp [endedBy, Logged.fail]
          | lenient =>
            simp [endedBy, Settings.after, Line.value?, htrue]
            rfl
    · rw [readLine_other mode settings number hsignature hflag, Line.fault?,
        if_neg fun h => hflag h.1, Settings.after, Line.value?, Line.value?, if_neg hsignature,
        if_neg hflag]
      rfl

end ReadLine

/-- What the lines of a section do to its settings: the first fault ends the reading, and without
one the last lines count. -/
theorem result_readLines (mode : Mode) (settings : Settings) (lines : List (Nat × Line)) :
    (readLines mode settings lines).result =
      endedBy (lines.findSome? fun l => l.2.fault? mode l.1)
        (lines.foldl Settings.after settings) := by
  induction lines generalizing settings with
  | nil => rfl
  | cons l lines ih =>
    rw [readLines, Logged.result_bind, result_readLine, List.findSome?_cons]
    simp only [ih]
    cases l.2.fault? mode l.1 with
    | some fault => rfl
    | none => rfl

end Section

/-! ## 3. Entries -/

namespace Section

theorem built?_eq (s : Section) :
    s.built? =
      ((s.made.signature.map Prod.fst).bind fun text => (Signature.ofText text).toOption).map
        fun signature => {
          name := s.name
          signature
          entryPointOnly := s.made.entryPointOnly
          line := s.line } := by
  rw [built?, build]
  cases s.made.signature with
  | none => rfl
  | some last =>
    obtain ⟨text, line⟩ := last
    simp only [Logged.result_bind, Logged.mapError, Signature.result_noted]
    show _ = ((Signature.ofText text).toOption).map _
    cases Signature.ofText text with
    | error fault => rfl
    | ok signature => rfl

theorem buildFault?_eq (s : Section) :
    s.buildFault? =
      match s.made.signature with
      | none => some (.missingSignature s.name s.line)
      | some (text, line) =>
        match Signature.ofText text with
        | .error cause => some (.signature s.name line cause)
        | .ok _ => none := by
  rw [buildFault?, build]
  cases s.made.signature with
  | none => rfl
  | some last =>
    obtain ⟨text, line⟩ := last
    simp only [Logged.result_bind, Logged.mapError, Signature.result_noted]
    cases Signature.ofText text <;> rfl

theorem eq_built_of_mem_events_build {s : Section} {settings : Settings} {e : Event}
    (h : e ∈ (s.build settings).events) : ∃ signature, e = .built signature := by
  rw [build] at h
  split at h
  · cases h
  · next text _ _ =>
    rw [Logged.mem_events_bind] at h
    cases h with
    | inl hnoted =>
      obtain ⟨signature, -, rfl⟩ := Signature.mem_events_noted.mp hnoted
      exact ⟨signature, rfl⟩
    | inr hreturn =>
      obtain ⟨_, _, hmem⟩ := hreturn
      cases hmem

/-- What a section comes to: the first fault of its lines, then in strict mode the fault of its
entry, and otherwise its entry, if it has one. -/
theorem result_readEntry (mode : Mode) (s : Section) :
    (s.readEntry mode).result = endedBy (s.fault? mode) s.built? := by
  unfold Section.readEntry
  rw [Logged.result_bind, settings, result_readLines, Section.fault?]
  cases s.body.findSome? fun l => l.2.fault? mode l.1 with
  | some fault => rfl
  | none =>
    rw [Option.none_or, endedBy_none_bind, built?, buildFault?, ← made]
    cases hbuilt : (s.build s.made).result with
    | ok e =>
      simp only [hbuilt]
      cases mode <;> rfl
    | error fault =>
      simp only [hbuilt]
      cases mode <;> rfl

end Section

theorem result_entriesOf (mode : Mode) (sections : List Section) :
    (entriesOf mode sections).result =
      endedBy (sections.findSome? (Section.fault? mode)) (sections.filterMap Section.built?) := by
  induction sections with
  | nil => rfl
  | cons s sections ih =>
    rw [entriesOf, Logged.result_bind, Section.result_readEntry, List.findSome?_cons]
    simp only [Logged.result_bind, ih]
    cases s.fault? mode with
    | some fault => rfl
    | none =>
      cases sections.findSome? (Section.fault? mode) with
      | some fault => rfl
      | none =>
        rw [endedBy_none_bind, endedBy_none_bind, List.filterMap_cons]
        cases s.built? <;> rfl

/-! ## 4. Files -/

section Parse

variable (mode : Mode) {text : String}

theorem parse_of_front_fault {fault : DatabaseError}
    (h : ((split (numberedLines text)).1.findSome? fun l => l.2.faultOutside? l.1) = some fault) :
    parse mode text = .fail fault := by
  unfold parse
  rcases hsplit : split (numberedLines text) with ⟨front, sections⟩
  rw [hsplit] at h
  simp only [h]

theorem parse_of_front
    (h : ((split (numberedLines text)).1.findSome? fun l => l.2.faultOutside? l.1) = none) :
    parse mode text = (do
      let entries ← entriesOf mode (split (numberedLines text)).2
      .note (.parsed entries.length)
      return ⟨entries⟩) := by
  unfold parse
  rcases hsplit : split (numberedLines text) with ⟨front, sections⟩
  rw [hsplit] at h
  simp only [h]

/-- A file is refused for the first fault of its lines, and otherwise it is the entries of its
sections. -/
theorem result_parse (text : String) :
    (parse mode text).result =
      endedBy (fault? mode (numberedLines text)) ⟨entriesIn (numberedLines text)⟩ := by
  rw [fault?]
  cases hfront : (split (numberedLines text)).1.findSome? fun l => l.2.faultOutside? l.1 with
  | some fault =>
    rw [parse_of_front_fault mode hfront]
    rfl
  | none =>
    rw [parse_of_front mode hfront, Logged.result_bind, result_entriesOf]
    cases (split (numberedLines text)).2.findSome? (Section.fault? mode) with
    | some fault => rfl
    | none => rfl

end Parse

end ByteScan.Database

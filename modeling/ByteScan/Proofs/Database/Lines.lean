import ByteScan.Database.Section
import Mathlib.Data.List.TakeWhile

/-!
# What a line says

`Line.ofTrimmed` reads a line by the shape of its first characters. This module says the same by
conditions on the whole line: whether there is anything to read in it, whether it is a header, and
whether it has an `=`. These three decide what kind of line it is, and the name, the key and the
value are parts of it around the brackets and the first `=`.

Results:
1. `Line.ofTrimmed_of_not_significant`, `Line.ofTrimmed_of_isHeader`, `Line.ofTrimmed_of_mem`,
   `Line.ofTrimmed_of_not_mem`: the kinds of lines.
2. `numberedLines_eq`: the lines of a text, with their numbers.
3. `readFrom_cons`, `readFrom_append`: lines that are not trimmed yet.
-/

namespace ByteScan.Database

/-! ## 1. Kinds of lines -/

namespace Line

/-- There is something to read in a line: it is neither blank nor a comment. -/
def IsSignificant (cs : List Char) : Prop :=
  cs ≠ [] ∧ cs.head? ≠ some ';' ∧ cs.head? ≠ some '#'

instance : DecidablePred IsSignificant :=
  fun cs => inferInstanceAs (Decidable (cs ≠ [] ∧ cs.head? ≠ some ';' ∧ cs.head? ≠ some '#'))

/-- A header begins with `[`, and what follows that ends with `]`. -/
def IsHeader (cs : List Char) : Prop :=
  IsSignificant cs ∧ cs.head? = some '[' ∧ cs.tail.getLast? = some ']'

instance : DecidablePred IsHeader :=
  fun cs => inferInstanceAs
    (Decidable (IsSignificant cs ∧ cs.head? = some '[' ∧ cs.tail.getLast? = some ']'))

/-- The name that a header gives to its section. -/
def nameOf (cs : List Char) : String :=
  String.ofList (Text.trim cs.tail.dropLast)

/-- What stands before the first `=`, in lower case. -/
def keyOf (cs : List Char) : String :=
  String.ofList ((Text.trim (cs.takeWhile (· ≠ '='))).map Char.toLower)

/-- What stands behind the first `=`. -/
def valueOf (cs : List Char) : String :=
  String.ofList (Text.trim (cs.dropWhile (· ≠ '=')).tail)

section OfTrimmed

variable {cs : List Char}

theorem bracketed?_eq (cs : List Char) :
    bracketed? cs =
      if cs.head? = some '[' ∧ cs.tail.getLast? = some ']' then some cs.tail.dropLast
      else none := by
  unfold bracketed?
  split
  · simp
  · next hne =>
    rw [if_neg]
    rintro ⟨hhead, -⟩
    obtain ⟨rest, rfl⟩ := List.head?_eq_some_iff.mp hhead
    exact hne rest rfl

theorem dropWhile_eq_nil_iff_not_mem : cs.dropWhile (· ≠ '=') = [] ↔ '=' ∉ cs := by
  simp only [List.dropWhile_eq_nil_iff, decide_eq_true_eq]
  exact ⟨fun h hmem => h _ hmem rfl, fun h c hc heq => h (heq ▸ hc)⟩

theorem ofTrimmed_of_not_significant (h : ¬ IsSignificant cs) : ofTrimmed cs = .ignored := by
  unfold ofTrimmed
  split
  · rfl
  · rfl
  · rfl
  · next hnil hsemi hhash =>
    refine absurd ⟨hnil, fun hhead => ?_, fun hhead => ?_⟩ h
    · obtain ⟨rest, rfl⟩ := List.head?_eq_some_iff.mp hhead
      exact hsemi rest rfl
    · obtain ⟨rest, rfl⟩ := List.head?_eq_some_iff.mp hhead
      exact hhash rest rfl

/-- A line in which there is something to read, before it is told whether that is a header. -/
theorem ofTrimmed_of_significant (h : IsSignificant cs) :
    ofTrimmed cs =
      if IsHeader cs then .header (nameOf cs)
      else if '=' ∈ cs then .setting (keyOf cs) (valueOf cs)
      else .stray (String.ofList cs) := by
  unfold ofTrimmed
  split
  · exact absurd rfl h.1
  · exact absurd rfl h.2.1
  · exact absurd rfl h.2.2
  · rw [bracketed?_eq]
    by_cases hhead : cs.head? = some '[' ∧ cs.tail.getLast? = some ']'
    · rw [if_pos hhead, if_pos ⟨h, hhead⟩]
      rfl
    · rw [if_neg hhead, if_neg fun hheader => hhead hheader.2]
      by_cases hmem : '=' ∈ cs
      · rw [if_pos hmem, valueOf]
        cases hrest : cs.dropWhile (· ≠ '=') with
        | nil => exact absurd hmem (dropWhile_eq_nil_iff_not_mem.mp hrest)
        | cons c value => rfl
      · rw [if_neg hmem, dropWhile_eq_nil_iff_not_mem.mpr hmem]

theorem ofTrimmed_of_isHeader (h : IsHeader cs) : ofTrimmed cs = .header (nameOf cs) := by
  rw [ofTrimmed_of_significant h.1, if_pos h]

theorem ofTrimmed_of_mem (h : IsSignificant cs) (hheader : ¬ IsHeader cs) (hmem : '=' ∈ cs) :
    ofTrimmed cs = .setting (keyOf cs) (valueOf cs) := by
  rw [ofTrimmed_of_significant h, if_neg hheader, if_pos hmem]

theorem ofTrimmed_of_not_mem (h : IsSignificant cs) (hheader : ¬ IsHeader cs) (hmem : '=' ∉ cs) :
    ofTrimmed cs = .stray (String.ofList cs) := by
  rw [ofTrimmed_of_significant h, if_neg hheader, if_neg hmem]

theorem ofTrimmed_ne_header (h : ¬ IsHeader cs) (name : String) : ofTrimmed cs ≠ .header name := by
  by_cases hsig : IsSignificant cs
  · rw [ofTrimmed_of_significant hsig, if_neg h]
    split <;> exact Line.noConfusion
  · rw [ofTrimmed_of_not_significant hsig]
    exact Line.noConfusion

end OfTrimmed

end Line

/-! ## 2. The lines of a text -/

/-- The lines of a text without the blanks at their ends. -/
def trimmedLines (text : String) : List (List Char) :=
  (Text.lines text.toList).map Text.trim

/-- Lines as they are read, with their numbers. `index` lines stand before them. -/
def numberFrom (index : Nat) (lines : List (List Char)) : List (Nat × Line) :=
  (lines.zipIdx index).map fun (cs, i) => (i + 1, Line.ofTrimmed cs)

theorem numberFrom_cons (index : Nat) (cs : List Char) (lines : List (List Char)) :
    numberFrom index (cs :: lines) =
      (index + 1, Line.ofTrimmed cs) :: numberFrom (index + 1) lines :=
  rfl

theorem numberFrom_append (index : Nat) (lines more : List (List Char)) :
    numberFrom index (lines ++ more) =
      numberFrom index lines ++ numberFrom (index + lines.length) more := by
  rw [numberFrom, List.zipIdx_append, List.map_append]
  rfl

theorem numberedLines_eq (text : String) :
    numberedLines text = numberFrom 0 (trimmedLines text) := by
  rw [numberedLines, List.mapIdx_eq_zipIdx_map, numberFrom, trimmedLines, List.zipIdx_map,
    List.map_map]
  rfl

/-! ## 3. Lines as they are read -/

/-- Lines with what they are read as and with their numbers. `index` lines stand before them. -/
def readFrom (index : Nat) (lines : List (List Char)) : List (Nat × Line) :=
  numberFrom index (lines.map Text.trim)

section ReadFrom

variable (index : Nat) (lines : List (List Char))

theorem readFrom_cons (cs : List Char) :
    readFrom index (cs :: lines) = (index + 1, Line.ofChars cs) :: readFrom (index + 1) lines :=
  rfl

theorem readFrom_append (more : List (List Char)) :
    readFrom index (lines ++ more) =
      readFrom index lines ++ readFrom (index + lines.length) more := by
  rw [readFrom, List.map_append, numberFrom_append, List.length_map, readFrom, readFrom]

theorem exists_of_mem_readFrom {l : Nat × Line} (h : l ∈ readFrom index lines) :
    ∃ cs ∈ lines, l.2 = Line.ofChars cs := by
  obtain ⟨⟨trimmed, i⟩, hmem, rfl⟩ := List.mem_map.mp h
  obtain ⟨cs, hcs, rfl⟩ := List.mem_map.mp (List.fst_mem_of_mem_zipIdx hmem)
  exact ⟨cs, hcs, rfl⟩

end ReadFrom

end ByteScan.Database

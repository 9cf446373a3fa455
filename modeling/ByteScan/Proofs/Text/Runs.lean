import ByteScan.Proofs.Text.Trim

/-!
# Words as maximal runs

`fields` cuts a text at every blank and drops the empty pieces. This module says what the words are
without cutting: the runs of characters that are not blank, each as long as it can be.

* `Runs`: a text, and its maximal runs from left to right.

Results:
1. `fields_of_runs`: the runs of a text are its fields, so that a text has only one list of runs.
2. `exists_runs`: every text has runs.
3. `runs_iff`: both together.
-/

namespace ByteScan.Text

/-- The maximal runs of characters that are not blank, in the order of the text. Only blanks stand
before a run, since the run before it or since the start of the text, and a run goes on to a blank or
to the end of the text. -/
inductive Runs : List Char → List (List Char) → Prop
  | nil {gap : List Char} : (∀ c ∈ gap, isBlank c = true) → Runs gap []
  | cons {gap word rest : List Char} {words : List (List Char)} :
      (∀ c ∈ gap, isBlank c = true) → IsWord word → (∀ c ∈ rest.head?, isBlank c = true) →
      Runs rest words → Runs (gap ++ (word ++ rest)) (word :: words)

variable {cs : List Char} {words : List (List Char)}

/-! ## 1. Runs are fields -/

theorem fields_word_append {word rest : List Char} (hword : IsWord word)
    (hrest : ∀ c ∈ rest.head?, isBlank c = true) :
    fields (word ++ rest) = word :: fields rest := by
  cases rest with
  | nil =>
    rw [List.append_nil, fields_of_isWord hword]
    rfl
  | cons c more =>
    have hc : isBlank c = true := hrest c rfl
    have hmore : fields (c :: more) = fields more := fields_append_blank hc [] more
    rw [fields_append_cons hword hc, hmore]

theorem fields_of_runs (h : Runs cs words) : fields cs = words := by
  induction h with
  | @nil gap hgap =>
    have hnil : fields (gap ++ []) = fields [] := fields_append_left hgap []
    rw [List.append_nil] at hnil
    exact hnil
  | cons hgap hword hrest _ ih =>
    rw [fields_append_left hgap, fields_word_append hword hrest, ih]

/-! ## 2. Every text has runs -/

theorem Runs.cons_blank {c : Char} (hc : isBlank c = true) (h : Runs cs words) :
    Runs (c :: cs) words := by
  rcases h with hgap | ⟨hgap, hword, hrest, hruns⟩
  · exact .nil (List.forall_mem_cons.mpr ⟨hc, hgap⟩)
  · exact .cons (List.forall_mem_cons.mpr ⟨hc, hgap⟩) hword hrest hruns

/-- A run at the start of a text. -/
theorem Runs.cons_word {word rest : List Char} (hword : IsWord word)
    (hrest : ∀ c ∈ rest.head?, isBlank c = true) (h : Runs rest words) :
    Runs (word ++ rest) (word :: words) := by
  have hempty : ∀ c ∈ ([] : List Char), isBlank c = true := fun c hc => absurd hc List.not_mem_nil
  exact .cons hempty hword hrest h

theorem isWord_singleton {c : Char} (hc : isBlank c = false) : IsWord [c] :=
  ⟨List.cons_ne_nil c [], List.forall_mem_singleton.mpr hc⟩

theorem exists_runs (cs : List Char) : ∃ words, Runs cs words := by
  induction cs with
  | nil => exact ⟨[], .nil fun c hc => absurd hc List.not_mem_nil⟩
  | cons c cs ih =>
    obtain ⟨words, h⟩ := ih
    cases hc : isBlank c with
    | true => exact ⟨words, h.cons_blank hc⟩
    | false =>
      -- The character goes to a run that begins right behind it, or is a run of its own.
      rcases h with hgap | @⟨gap, word, rest, words, hgap, hword, hrest, hruns⟩
      · refine ⟨[[c]], .cons_word (isWord_singleton hc) ?_ (.nil hgap)⟩
        intro d hd
        exact hgap d (List.mem_of_head? hd)
      · cases gap with
        | nil =>
          have hlonger : IsWord (c :: word) :=
            ⟨List.cons_ne_nil c word, List.forall_mem_cons.mpr ⟨hc, hword.2⟩⟩
          exact ⟨(c :: word) :: words, .cons_word hlonger hrest hruns⟩
        | cons d gap =>
          refine ⟨[c] :: word :: words,
            .cons_word (isWord_singleton hc) ?_ (.cons hgap hword hrest hruns)⟩
          rintro e ⟨⟩
          exact hgap d List.mem_cons_self

/-! ## 3. Runs and fields -/

theorem runs_iff : Runs cs words ↔ words = fields cs := by
  constructor
  · intro h
    exact (fields_of_runs h).symm
  · rintro rfl
    obtain ⟨words, h⟩ := exists_runs cs
    rw [fields_of_runs h]
    exact h

end ByteScan.Text

import ByteScan.Proofs.Text.Words
import Mathlib.Data.List.DropRight

/-!
# Trimmed text

`trim` takes away the blanks at both ends of a text and leaves those in between. So blanks put around
a text do not change what is left of it, a character that is not blank keeps the two sides of a text
apart, and a text is left as it is if neither its first nor its last character is blank.

Results:
1. `trim_append_left`, `trim_append_right`: blanks around a text.
2. `trim_append_cons`, `head?_trim`: a character that is not blank.
3. `trim_eq_self`, `trim_intercalate`: texts that are left as they are.
4. `map_toLower_trim`: letters in lower case.
5. `Padding.trim_put`, `Spelling.map_toLower_trim_put`: a text between blanks, and a word in any
   case of its letters.
6. `fields_trim`: the words of a trimmed text.
-/

namespace ByteScan.Text

variable {front back cs : List Char} {c : Char}

theorem trim_eq_rdropWhile (cs : List Char) :
    trim cs = (cs.dropWhile isBlank).rdropWhile isBlank :=
  rfl

/-! ## 1. Blanks around a text -/

theorem trim_append_left (h : ∀ c ∈ front, isBlank c = true) (cs : List Char) :
    trim (front ++ cs) = trim cs := by
  rw [trim, List.dropWhile_append_of_pos h, trim]

theorem trim_append_right (h : ∀ c ∈ back, isBlank c = true) (cs : List Char) :
    trim (cs ++ back) = trim cs := by
  have hback : back.dropWhile isBlank = [] := List.dropWhile_eq_nil_iff.mpr h
  have hreverse : ∀ c ∈ back.reverse, isBlank c = true := fun c hc => h c (List.mem_reverse.mp hc)
  rw [trim, List.dropWhile_append, trim]
  split
  · next hnil => rw [hback, List.isEmpty_iff.mp hnil]
  · rw [List.reverse_append, List.dropWhile_append_of_pos hreverse]

theorem trim_dropWhile (cs : List Char) : trim (cs.dropWhile isBlank) = trim cs := by
  rw [trim, List.dropWhile_idempotent, trim]

theorem trim_rdropWhile (cs : List Char) : trim (cs.rdropWhile isBlank) = trim cs := by
  have hblank : ∀ c ∈ cs.rtakeWhile isBlank, isBlank c = true := fun _ => List.mem_rtakeWhile_imp
  rw [← trim_append_right hblank, List.rdropWhile_append_rtakeWhile]

/-! ## 2. A character that is not blank -/

section Apart

variable (hc : isBlank c = false)
include hc

theorem dropWhile_append_cons (front back : List Char) :
    (front ++ c :: back).dropWhile isBlank = front.dropWhile isBlank ++ c :: back := by
  rw [List.dropWhile_append]
  split
  · next hnil =>
    rw [List.isEmpty_iff.mp hnil, List.dropWhile_cons_of_neg (by rw [hc]; decide), List.nil_append]
  · rfl

theorem rdropWhile_append_cons (front back : List Char) :
    (front ++ c :: back).rdropWhile isBlank = front ++ c :: back.rdropWhile isBlank := by
  rw [List.rdropWhile, List.reverse_append, List.reverse_cons, List.append_assoc,
    List.singleton_append, dropWhile_append_cons hc, List.reverse_append, List.reverse_cons,
    List.reverse_reverse, List.append_assoc, List.singleton_append, List.rdropWhile]

theorem trim_append_cons (front back : List Char) :
    trim (front ++ c :: back) = front.dropWhile isBlank ++ c :: back.rdropWhile isBlank := by
  rw [trim_eq_rdropWhile, dropWhile_append_cons hc, rdropWhile_append_cons hc]

end Apart

theorem head?_trim (cs : List Char) : (trim cs).head? = (cs.dropWhile isBlank).head? := by
  have hnot := List.head?_dropWhile_not isBlank cs
  rw [trim_eq_rdropWhile]
  cases hdrop : cs.dropWhile isBlank with
  | nil => rfl
  | cons c rest =>
    rw [hdrop] at hnot
    have hkept : (c :: rest).rdropWhile isBlank = c :: rest.rdropWhile isBlank :=
      rdropWhile_append_cons hnot [] rest
    rw [hkept, List.head?_cons, List.head?_cons]

/-! ## 3. Texts that are left as they are -/

theorem dropWhile_eq_self (h : ∀ c ∈ cs.head?, isBlank c = false) : cs.dropWhile isBlank = cs := by
  cases cs with
  | nil => rfl
  | cons c rest => exact List.dropWhile_cons_of_neg (by rw [h c rfl]; decide)

theorem trim_eq_self (hfirst : ∀ c ∈ cs.head?, isBlank c = false)
    (hlast : ∀ c ∈ cs.getLast?, isBlank c = false) : trim cs = cs := by
  rw [trim, dropWhile_eq_self hfirst, dropWhile_eq_self (by rwa [List.head?_reverse]),
    List.reverse_reverse]

section Words

variable {word : List Char} {words : List (List Char)}

theorem head?_intercalate (h : IsWord word) (words : List (List Char)) :
    ([' '].intercalate (word :: words)).head? = word.head? := by
  cases words with
  | nil => rw [List.intercalate_singleton]
  | cons next words =>
    rw [List.intercalate_cons_cons, List.append_assoc, List.head?_append_of_ne_nil _ h.1]

theorem isBlank_getLast?_intercalate (h : ∀ word ∈ words, IsWord word) :
    ∀ c ∈ ([' '].intercalate words).getLast?, isBlank c = false := by
  induction words with
  | nil => exact fun c hc => nomatch hc
  | cons word words ih =>
    obtain ⟨hword, hwords⟩ := List.forall_mem_cons.mp h
    cases words with
    | nil =>
      rw [List.intercalate_singleton]
      exact fun c hc => hword.2 c (List.mem_of_getLast? hc)
    | cons next words =>
      have hnext : IsWord next := hwords next List.mem_cons_self
      have hne : [' '].intercalate (next :: words) ≠ [] := fun hnil => by
        have hhead := head?_intercalate hnext words
        rw [hnil, List.head?_nil, eq_comm, List.head?_eq_none_iff] at hhead
        exact hnext.1 hhead
      rw [List.intercalate_cons_cons, List.getLast?_append_of_ne_nil _ hne]
      exact ih hwords

theorem trim_intercalate (h : ∀ word ∈ words, IsWord word) :
    trim ([' '].intercalate words) = [' '].intercalate words := by
  refine trim_eq_self ?_ (isBlank_getLast?_intercalate h)
  cases words with
  | nil => exact fun c hc => nomatch hc
  | cons word words =>
    have hword : IsWord word := h word List.mem_cons_self
    rw [head?_intercalate hword]
    exact fun c hc => hword.2 c (List.mem_of_head? hc)

end Words

/-! ## 4. Letters -/

/-- Neither a letter in upper case nor its lower case is blank. -/
theorem isBlank_toLower (c : Char) : isBlank c.toLower = isBlank c := by
  -- Only the letters from `A` to `Z` change, and they stand in a row.
  have hletters : ∀ n : Fin 26, isBlank (Char.ofNat (65 + n)) = false ∧
      isBlank (Char.ofNat (65 + n)).toLower = false := by decide
  by_cases hupper : 65 ≤ c.toNat ∧ c.toNat ≤ 90
  · have hc : Char.ofNat (65 + (c.toNat - 65)) = c := by
      rw [Nat.add_sub_cancel' hupper.1, Char.ofNat_toNat]
    have hboth := hletters ⟨c.toNat - 65, by omega⟩
    rw [hc] at hboth
    rw [hboth.1, hboth.2]
  · have hself : c.toLower = c := dif_neg hupper
    rw [hself]

theorem map_toLower_trim (cs : List Char) :
    (trim cs).map Char.toLower = trim (cs.map Char.toLower) := by
  have hblank : isBlank ∘ Char.toLower = isBlank := funext isBlank_toLower
  rw [trim, trim, List.dropWhile_map, hblank, ← List.map_reverse, List.dropWhile_map, hblank,
    List.map_reverse]

/-! ## 5. Padding and spelling -/

/-- Blanks that stand on the two sides of a text, in the same line. -/
structure Padding where
  before : List Char
  after : List Char
  blank : ∀ c ∈ before ++ after, isBlank c = true
  oneLine : '\n' ∉ before ++ after

namespace Padding

/-- A text between the blanks. -/
def put (p : Padding) (cs : List Char) : List Char :=
  p.before ++ cs ++ p.after

variable (p : Padding)

theorem trim_put (cs : List Char) : trim (p.put cs) = trim cs := by
  rw [put, trim_append_right fun c hc => p.blank c (List.mem_append_right _ hc),
    trim_append_left fun c hc => p.blank c (List.mem_append_left _ hc)]

theorem not_mem_of_not_blank (hc : isBlank c = false) : c ∉ p.before ++ p.after := by
  intro hmem
  have hblank := p.blank c hmem
  rw [hc] at hblank
  cases hblank

theorem not_mem_put (hpadding : c ∉ p.before ++ p.after) (h : c ∉ cs) : c ∉ p.put cs := by
  rw [List.mem_append] at hpadding
  rw [put, List.mem_append, List.mem_append]
  rintro ((hbefore | hmem) | hafter)
  · exact hpadding (.inl hbefore)
  · exact h hmem
  · exact hpadding (.inr hafter)

end Padding

/-- A word with each of its letters in either case. The word itself is in lower case. -/
structure Spelling (word : String) where
  chars : List Char
  lower : chars.map Char.toLower = word.toList

namespace Spelling

variable {word : String} (s : Spelling word)

/-- Between blanks a spelling is still the word, if no blanks are at the ends of that. -/
theorem map_toLower_trim_put (p : Padding) :
    (trim (p.put s.chars)).map Char.toLower = trim word.toList := by
  rw [p.trim_put, map_toLower_trim, s.lower]

theorem map_toLower_ofList_trim (h : trim word.toList = word.toList) :
    (String.ofList (trim s.chars)).map Char.toLower = word := by
  rw [← String.toList_inj, String.toList_map, String.toList_ofList, map_toLower_trim, s.lower, h]

theorem not_mem (hc : c.toLower = c) (h : c ∉ word.toList) : c ∉ s.chars := by
  intro hmem
  refine h ?_
  rw [← s.lower, ← hc]
  exact List.mem_map_of_mem hmem

end Spelling

/-! ## 6. Words -/

theorem fields_append_blank (hc : isBlank c = true) (front back : List Char) :
    fields (front ++ c :: back) = fields front ++ fields back := by
  rw [fields, List.splitOnP_append_cons front back hc, List.filter_append]
  rfl

theorem fields_append_left (h : ∀ c ∈ front, isBlank c = true) (cs : List Char) :
    fields (front ++ cs) = fields cs := by
  induction front with
  | nil => rfl
  | cons c front ih =>
    obtain ⟨hc, hfront⟩ := List.forall_mem_cons.mp h
    exact (fields_append_blank hc [] (front ++ cs)).trans (ih hfront)

theorem fields_append_right (h : ∀ c ∈ back, isBlank c = true) (cs : List Char) :
    fields (cs ++ back) = fields cs := by
  cases back with
  | nil => rw [List.append_nil]
  | cons c back =>
    obtain ⟨hc, hback⟩ := List.forall_mem_cons.mp h
    have hnone : fields (back ++ []) = fields [] := fields_append_left hback []
    rw [fields_append_blank hc, ← List.append_nil back, hnone]
    exact List.append_nil _

theorem fields_trim (cs : List Char) : fields (trim cs) = fields cs := by
  have hfront : ∀ c ∈ cs.takeWhile isBlank, isBlank c = true := fun _ => List.mem_takeWhile_imp
  have hback : ∀ c ∈ (cs.dropWhile isBlank).rtakeWhile isBlank, isBlank c = true :=
    fun _ => List.mem_rtakeWhile_imp
  calc fields (trim cs)
      = fields ((cs.dropWhile isBlank).rdropWhile isBlank) := by rw [trim_eq_rdropWhile]
    _ = fields (cs.dropWhile isBlank) := by
        rw [← fields_append_right hback, List.rdropWhile_append_rtakeWhile]
    _ = fields cs := by rw [← fields_append_left hfront, List.takeWhile_append_dropWhile]

end ByteScan.Text

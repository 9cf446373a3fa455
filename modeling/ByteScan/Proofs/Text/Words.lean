import ByteScan.Text.Blank
import ByteScan.Text.Hex

/-!
# Words and digits read back

Joining words with single spaces and cutting the text at its blanks gives the words again, as long as
no word is empty or has a blank in it. The two digits of a byte are such a word, and they are read as
that byte.

Results:
1. `IsWord`, `fields_intercalate`: words joined and cut; `forall_mem_intercalate`: their characters.
2. `byte?_hexDigit`, `isWord_byteText`: the digits of a byte.
3. `exists_byte?`, `byte?_eq_none`: digits in either case.
4. `fields_bytesText`, `bytesText_inj`: the text of some bytes.
-/

namespace ByteScan.Text

/-! ## 1. Words -/

/-- A text that cutting at blanks leaves in one piece. -/
def IsWord (cs : List Char) : Prop :=
  cs ≠ [] ∧ ∀ c ∈ cs, isBlank c = false

section Fields

variable {word : List Char}

theorem fields_of_isWord (h : IsWord word) : fields word = [word] := by
  rw [fields, List.splitOnP_eq_singleton h.2]
  simp [h.1]

theorem fields_append_cons (h : IsWord word) {sep : Char} (hsep : isBlank sep = true)
    (rest : List Char) : fields (word ++ sep :: rest) = word :: fields rest := by
  rw [fields, List.splitOnP_append_cons_of_forall_mem h.2 sep hsep]
  simp [h.1, fields]

theorem fields_intercalate {words : List (List Char)} (h : ∀ word ∈ words, IsWord word) :
    fields ([' '].intercalate words) = words := by
  induction words with
  | nil => rfl
  | cons word words ih =>
    obtain ⟨hword, hwords⟩ := List.forall_mem_cons.mp h
    cases words with
    | nil => rw [List.intercalate_singleton, fields_of_isWord hword]
    | cons next words =>
      rw [List.intercalate_cons_cons, List.append_assoc]
      exact (fields_append_cons hword rfl _).trans (congrArg (word :: ·) (ih hwords))

/-- What holds of a space and of all characters of some words holds of their text. -/
theorem forall_mem_intercalate {words : List (List Char)} {P : Char → Prop} (hspace : P ' ')
    (h : ∀ word ∈ words, ∀ c ∈ word, P c) : ∀ c ∈ [' '].intercalate words, P c := by
  induction words with
  | nil => exact List.forall_mem_nil P
  | cons word words ih =>
    obtain ⟨hword, hwords⟩ := List.forall_mem_cons.mp h
    cases words with
    | nil => rwa [List.intercalate_singleton]
    | cons next words =>
      rw [List.intercalate_cons_cons, List.forall_mem_append, List.forall_mem_append]
      exact ⟨⟨hword, List.forall_mem_singleton.mpr hspace⟩, ih hwords⟩

end Fields

/-! ## 2. Digits -/

theorem isBlank_hexDigit {n : Nat} (h : n < 16) : isBlank (hexDigit n) = false := by
  have hall : ∀ n : Fin 16, isBlank (hexDigit n) = false := by decide
  exact hall ⟨n, h⟩

theorem hexDigit_ne_question {n : Nat} (h : n < 16) : hexDigit n ≠ '?' := by
  have hall : ∀ n : Fin 16, hexDigit n ≠ '?' := by decide
  exact hall ⟨n, h⟩

section Byte

variable (b : UInt8)

theorem high_lt : b.toNat / 16 < 16 := by
  have hlt := b.toNat_lt
  omega

theorem low_lt : b.toNat % 16 < 16 :=
  Nat.mod_lt _ (by decide)

theorem toList_byteText :
    (byteText b).toList = [hexDigit (b.toNat / 16), hexDigit (b.toNat % 16)] :=
  String.toList_ofList

theorem byte?_hexDigit :
    byte? (hexDigit (b.toNat / 16)) (hexDigit (b.toNat % 16)) = some b := by
  rw [byte?, hexValue?_hexDigit (high_lt b), hexValue?_hexDigit (low_lt b)]
  show some (UInt8.ofNat (16 * (b.toNat / 16) + b.toNat % 16)) = some b
  rw [Nat.div_add_mod, UInt8.ofNat_toNat]

theorem isWord_byteText : IsWord (byteText b).toList := by
  rw [toList_byteText]
  refine ⟨List.cons_ne_nil _ _, fun c hc => ?_⟩
  simp only [List.mem_cons, List.not_mem_nil, or_false] at hc
  cases hc with
  | inl hhigh => exact hhigh ▸ isBlank_hexDigit (high_lt b)
  | inr hlow => exact hlow ▸ isBlank_hexDigit (low_lt b)

end Byte

/-! ## 3. Digits in either case -/

/-- The digits of hexadecimal numbers, which are ASCII characters. Letters may be in either case. -/
def IsHexDigit (c : Char) : Prop :=
  ('0' ≤ c ∧ c ≤ '9') ∨ ('a' ≤ c ∧ c ≤ 'f') ∨ ('A' ≤ c ∧ c ≤ 'F')

instance : DecidablePred IsHexDigit :=
  fun c => inferInstanceAs
    (Decidable (('0' ≤ c ∧ c ≤ '9') ∨ ('a' ≤ c ∧ c ≤ 'f') ∨ ('A' ≤ c ∧ c ≤ 'F')))

theorem hexValue?_eq_none {c : Char} (h : ¬ IsHexDigit c) : hexValue? c = none := by
  rw [IsHexDigit, not_or, not_or] at h
  rw [hexValue?, if_neg h.1, if_neg h.2.1, if_neg h.2.2]

theorem toNat_lt_of_isHexDigit {c : Char} (h : IsHexDigit c) : c.toNat < 103 := by
  have hbound : ∀ d : Char, c ≤ d → c.toNat ≤ d.toNat := fun d hd => hd
  rcases h with ⟨-, hnine⟩ | ⟨-, hlower⟩ | ⟨-, hupper⟩
  · exact Nat.lt_of_le_of_lt (hbound '9' hnine) (by decide)
  · exact Nat.lt_of_le_of_lt (hbound 'f' hlower) (by decide)
  · exact Nat.lt_of_le_of_lt (hbound 'F' hupper) (by decide)

/-- The value of a digit is written as that digit in upper case. -/
theorem exists_hexValue? {c : Char} (h : IsHexDigit c) :
    ∃ n < 16, hexValue? c = some n ∧ hexDigit n = c.toUpper := by
  have hall : ∀ k : Fin 103, IsHexDigit (Char.ofNat k) →
      ∃ n : Fin 16, hexValue? (Char.ofNat k) = some n.val ∧
        hexDigit n = (Char.ofNat k).toUpper := by decide
  have hc : Char.ofNat c.toNat = c := Char.ofNat_toNat c
  obtain ⟨n, hn⟩ := hall ⟨c.toNat, toNat_lt_of_isHexDigit h⟩ (by rwa [hc])
  rw [hc] at hn
  exact ⟨n, n.isLt, hn⟩

section Pair

variable {high low : Char}

theorem exists_byte? (hhigh : IsHexDigit high) (hlow : IsHexDigit low) :
    ∃ b, byte? high low = some b ∧ (byteText b).toList = [high.toUpper, low.toUpper] := by
  obtain ⟨h, hh, hvalue, hupper⟩ := exists_hexValue? hhigh
  obtain ⟨l, hl, lvalue, lupper⟩ := exists_hexValue? hlow
  have hb : (UInt8.ofNat (16 * h + l)).toNat = 16 * h + l :=
    UInt8.toNat_ofNat_of_lt' (by rw [UInt8.size]; omega)
  refine ⟨UInt8.ofNat (16 * h + l), by rw [byte?, hvalue, lvalue]; rfl, ?_⟩
  rw [toList_byteText, hb, Nat.mul_add_div (by decide), Nat.div_eq_of_lt hl, Nat.add_zero,
    Nat.mul_add_mod, Nat.mod_eq_of_lt hl, hupper, lupper]

theorem byte?_eq_none (h : ¬ (IsHexDigit high ∧ IsHexDigit low)) : byte? high low = none := by
  by_cases hhigh : IsHexDigit high
  · have hlow : ¬ IsHexDigit low := fun hlow => h ⟨hhigh, hlow⟩
    obtain ⟨n, -, hvalue, -⟩ := exists_hexValue? hhigh
    rw [byte?, hvalue, hexValue?_eq_none hlow]
    rfl
  · rw [byte?, hexValue?_eq_none hhigh]
    rfl

end Pair

/-! ## 4. Bytes in text -/

theorem byteText_inj {a b : UInt8} (h : byteText a = byteText b) : a = b := by
  have hdigits := congrArg String.toList h
  rw [toList_byteText, toList_byteText, List.cons.injEq, List.cons.injEq] at hdigits
  obtain ⟨hhigh, hlow, -⟩ := hdigits
  have hbyte := byte?_hexDigit a
  rw [hhigh, hlow, byte?_hexDigit] at hbyte
  exact (Option.some.inj hbyte).symm

theorem fields_bytesText (bytes : List UInt8) :
    fields (bytesText bytes).toList = bytes.map fun b => (byteText b).toList := by
  have hwords : ∀ word ∈ bytes.map fun b => (byteText b).toList, IsWord word := by
    intro word hword
    obtain ⟨b, _, rfl⟩ := List.mem_map.mp hword
    exact isWord_byteText b
  rw [bytesText, String.toList_intercalate, List.map_map]
  exact fields_intercalate hwords

theorem bytesText_inj {as bs : List UInt8} (h : bytesText as = bytesText bs) : as = bs := by
  have hwords := congrArg (fun text => fields text.toList) h
  simp only [fields_bytesText] at hwords
  exact List.map_inj_right (fun a b hab => byteText_inj (String.toList_inj.mp hab)) |>.mp hwords

end ByteScan.Text

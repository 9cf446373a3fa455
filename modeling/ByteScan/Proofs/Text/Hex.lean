import ByteScan.Proofs.Text.Words

/-!
# Hexadecimal digits in either case, and numbers of many digits

Two digits are read as the byte that they write in upper case. A number is written with lower-case
digits and filled up with zeros in front, and these digits are read as the number again, however many
zeros there are.

Results:
1. `isHexDigit_of_toUpper`, `byte?_eq_some_iff`: digits in upper case.
2. `hexNumber_toDigits`: the digits of a number.
3. `hexNumber_paddedHex`, `paddedHex_inj`: digits with zeros in front of them.
-/

namespace ByteScan.Text

/-! ## 1. Digits in upper case -/

/-- What holds of the first characters holds of a character among them. -/
theorem of_forall_ofNat {P : Char → Prop} {bound : Nat} (h : ∀ k : Fin bound, P (Char.ofNat k))
    {c : Char} (hc : c.toNat < bound) : P c :=
  Char.ofNat_toNat c ▸ h ⟨c.toNat, hc⟩

theorem isBlank_of_isHexDigit {c : Char} (h : IsHexDigit c) : isBlank c = false := by
  have hall : ∀ k : Fin 103, IsHexDigit (Char.ofNat k) → isBlank (Char.ofNat k) = false := by
    decide
  exact of_forall_ofNat (P := fun c => IsHexDigit c → isBlank c = false) hall
    (toNat_lt_of_isHexDigit h) h

theorem toUpper_hexDigit {n : Nat} (h : n < 16) : (hexDigit n).toUpper = hexDigit n := by
  have hall : ∀ n : Fin 16, (hexDigit n).toUpper = hexDigit n := by decide
  exact hall ⟨n, h⟩

theorem isHexDigit_hexDigit {n : Nat} (h : n < 16) : IsHexDigit (hexDigit n) := by
  have hall : ∀ n : Fin 16, IsHexDigit (hexDigit n) := by decide
  exact hall ⟨n, h⟩

theorem isHexDigit_of_mem_byteText (b : UInt8) : ∀ c ∈ (byteText b).toList, IsHexDigit c := by
  rw [toList_byteText, List.forall_mem_cons, List.forall_mem_singleton]
  exact ⟨isHexDigit_hexDigit (high_lt b), isHexDigit_hexDigit (low_lt b)⟩

/-- Bytes are written with digits and spaces. -/
theorem mem_bytesText (bytes : List UInt8) :
    ∀ c ∈ (bytesText bytes).toList, IsHexDigit c ∨ c = ' ' := by
  rw [bytesText, String.toList_intercalate]
  refine forall_mem_intercalate (.inr rfl) fun word hword c hc => .inl ?_
  rw [List.map_map] at hword
  obtain ⟨b, -, rfl⟩ := List.mem_map.mp hword
  exact isHexDigit_of_mem_byteText b c hc

/-- What is a digit in upper case is a digit. -/
theorem isHexDigit_of_toUpper {c : Char} (h : IsHexDigit c.toUpper) : IsHexDigit c := by
  have hall : ∀ k : Fin 128, IsHexDigit (Char.ofNat k).toUpper → IsHexDigit (Char.ofNat k) := by
    decide
  rcases Nat.lt_or_ge c.toNat 128 with hlt | hge
  · exact of_forall_ofNat (P := fun c => IsHexDigit c.toUpper → IsHexDigit c) hall hlt h
  · have hsame : c.toUpper = c := dif_neg fun hlower =>
      Nat.not_lt_of_le hge (Nat.lt_of_le_of_lt hlower.2 (by decide))
    rwa [hsame] at h

/-- Two characters are the digits of a byte if they are so in upper case. -/
theorem byte?_eq_some_iff {high low : Char} {b : UInt8} : byte? high low = some b ↔
    (byteText b).toList = [high.toUpper, low.toUpper] := by
  by_cases hdigits : IsHexDigit high ∧ IsHexDigit low
  · obtain ⟨d, hd, htext⟩ := exists_byte? hdigits.1 hdigits.2
    rw [hd, ← htext, String.toList_inj, Option.some.injEq]
    exact ⟨fun h => h ▸ rfl, fun h => (byteText_inj h).symm⟩
  · rw [byte?_eq_none hdigits]
    refine iff_of_false (Option.some_ne_none b).symm fun htext => hdigits ?_
    rw [toList_byteText, List.cons.injEq, List.cons.injEq] at htext
    obtain ⟨hhigh, hlow, -⟩ := htext
    exact ⟨isHexDigit_of_toUpper (hhigh ▸ isHexDigit_hexDigit (high_lt b)),
      isHexDigit_of_toUpper (hlow ▸ isHexDigit_hexDigit (low_lt b))⟩

/-! ## 2. The digits of a number -/

/-- The number that hexadecimal digits write. -/
def hexNumber (digits : List Char) : Nat :=
  digits.foldl (fun n c => 16 * n + (hexValue? c).getD 0) 0

theorem hexNumber_concat (digits : List Char) (c : Char) :
    hexNumber (digits ++ [c]) = 16 * hexNumber digits + (hexValue? c).getD 0 :=
  List.foldl_append

theorem hexValue?_digitChar {n : Nat} (h : n < 16) : hexValue? n.digitChar = some n := by
  have hall : ∀ n : Fin 16, hexValue? n.val.digitChar = some n.val := by decide
  exact hall ⟨n, h⟩

theorem isHexDigit_digitChar {n : Nat} (h : n < 16) : IsHexDigit n.digitChar := by
  have hall : ∀ n : Fin 16, IsHexDigit n.val.digitChar := by decide
  exact hall ⟨n, h⟩

theorem hexNumber_toDigits (n : Nat) : hexNumber (Nat.toDigits 16 n) = n := by
  induction n using Nat.strongRecOn with
  | ind n ih =>
    rw [Nat.toDigits_eq_if (by decide)]
    split
    · next hlt => simp [hexNumber, hexValue?_digitChar hlt]
    · next hge =>
      rw [hexNumber_concat, ih (n / 16) (by omega), hexValue?_digitChar (by omega), Option.getD_some,
        Nat.div_add_mod]

theorem isHexDigit_of_mem_toDigits (n : Nat) : ∀ c ∈ Nat.toDigits 16 n, IsHexDigit c := by
  induction n using Nat.strongRecOn with
  | ind n ih =>
    rw [Nat.toDigits_eq_if (by decide)]
    split
    · next hlt => exact List.forall_mem_singleton.mpr (isHexDigit_digitChar hlt)
    · next hge =>
      rw [List.forall_mem_append]
      exact ⟨ih (n / 16) (by omega),
        List.forall_mem_singleton.mpr (isHexDigit_digitChar (Nat.mod_lt n (by decide)))⟩

/-! ## 3. Zeros in front -/

theorem hexNumber_zeros_append (k : Nat) (digits : List Char) :
    hexNumber (List.replicate k '0' ++ digits) = hexNumber digits := by
  induction k with
  | zero => rfl
  | succ k ih =>
    rw [List.replicate_succ, List.cons_append]
    exact ih

theorem hexNumber_paddedHex (width n : Nat) : hexNumber (paddedHex width n).toList = n := by
  rw [paddedHex, String.toList_ofList, hexNumber_zeros_append, hexNumber_toDigits]

theorem paddedHex_inj {width m n : Nat} (h : paddedHex width m = paddedHex width n) : m = n := by
  have hread := congrArg (fun text => hexNumber text.toList) h
  simp only [hexNumber_paddedHex] at hread
  exact hread

theorem isHexDigit_of_mem_paddedHex (width n : Nat) :
    ∀ c ∈ (paddedHex width n).toList, IsHexDigit c := by
  rw [paddedHex, String.toList_ofList, List.forall_mem_append]
  refine ⟨fun c hc => ?_, isHexDigit_of_mem_toDigits n⟩
  rw [List.eq_of_mem_replicate hc]
  decide

end ByteScan.Text

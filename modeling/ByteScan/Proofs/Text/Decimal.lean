import ByteScan.Text.Decimal
import Mathlib.Data.List.Basic

/-!
# Digits of a number read back

The decimal digits that are written for a number are read as this number, and they begin with a zero
only if they are a single zero. With zeros and a sign in front of them they are read as the same number
or as its negative.

* `Numeral`: the ways to write a whole number.

Results:
1. `decimal_toDigits`: the digits are read back. `head?_toDigits`: no zero in front of other digits.
2. `int64?_toString`, `uint64?_toString`: numbers of 64 bits in text.
3. `int64?_of_numeral`, `int64?_eq_none`: numbers with zeros and a sign in front.
-/

namespace ByteScan.Text

/-! ## 1. Digits -/

theorem decimal_toDigits (n : Nat) : decimal (Nat.toDigits 10 n) = n := by
  rw [decimal, ← Nat.ofDigitChars_eq_foldl, Nat.ofDigitChars_ten_toDigits]

theorem head?_toDigits {n : Nat} (h : n ≠ 0) : (Nat.toDigits 10 n).head? ≠ some '0' := by
  induction n using Nat.strongRecOn with
  | ind n ih =>
    rw [Nat.toDigits_eq_if (by decide)]
    split
    · next hlt =>
      have hdigits : ∀ n : Fin 10, n.val ≠ 0 → n.val.digitChar ≠ '0' := by decide
      rw [List.head?_singleton]
      exact fun heq => hdigits ⟨n, hlt⟩ h (Option.some.inj heq)
    · next hge =>
      rw [List.head?_append_of_ne_nil _ Nat.toDigits_ne_nil]
      exact ih (n / 10) (by omega) (by omega)

/-! ## 2. Numbers in text -/

theorem toList_toString_ofNat (n : Nat) : (toString (Int.ofNat n)).toList = Nat.toDigits 10 n :=
  Nat.toList_repr

theorem toList_toString_negSucc (n : Nat) :
    (toString (Int.negSucc n)).toList = '-' :: Nat.toDigits 10 (n + 1) := by
  show ("-" ++ Nat.repr (n + 1)).toList = _
  rw [String.toList_append, Nat.toList_repr]
  rfl

theorem toList_toString (n : Nat) : (toString n).toList = Nat.toDigits 10 n :=
  Nat.toList_repr

theorem isDigit_of_mem_toString (n : Nat) : ∀ c ∈ (toString n).toList, c.isDigit = true :=
  fun _ hc => Nat.isDigit_of_mem_toDigits (by decide) (by decide) (toList_toString n ▸ hc)

theorem not_mem_toString {c : Char} (hc : c.isDigit = false) (n : Nat) : c ∉ (toString n).toList :=
  fun hmem => Bool.false_ne_true (hc.symm.trans (isDigit_of_mem_toString n c hmem))

theorem natural?_toDigits (n : Nat) : natural? (Nat.toDigits 10 n) = some n := by
  have hdigits : (Nat.toDigits 10 n).all Char.isDigit = true :=
    List.all_eq_true.mpr fun c => Nat.isDigit_of_mem_toDigits (by decide) (by decide)
  rw [natural?, if_pos ⟨Nat.toDigits_ne_nil, hdigits⟩, decimal_toDigits]

theorem natural?_toString (n : Nat) : natural? (toString n).toList = some n := by
  rw [toList_toString, natural?_toDigits]

/-- Digits do not begin with a sign. -/
theorem ne_sign_cons_toDigits (n : Nat) (c : Char) (cs : List Char) (hc : c.isDigit = false) :
    Nat.toDigits 10 n ≠ c :: cs := by
  intro heq
  have hmem : c ∈ Nat.toDigits 10 n := heq ▸ List.mem_cons_self
  have hdigit : c.isDigit = true := Nat.isDigit_of_mem_toDigits (by decide) (by decide) hmem
  rw [hc] at hdigit
  cases hdigit

theorem signed?_toString (n : Int) : signed? (toString n).toList = some n := by
  cases n with
  | ofNat n =>
    rw [toList_toString_ofNat]
    unfold signed?
    split
    · next heq => exact absurd heq (ne_sign_cons_toDigits n '-' _ rfl)
    · next heq => exact absurd heq (ne_sign_cons_toDigits n '+' _ rfl)
    · rw [natural?_toDigits]
      rfl
  | negSucc n =>
    rw [toList_toString_negSucc, signed?, natural?_toDigits]
    rfl

theorem unsigned?_toString (n : Nat) : unsigned? (toString n).toList = some n := by
  rw [toList_toString]
  unfold unsigned?
  split
  · next heq => exact absurd heq (ne_sign_cons_toDigits n '+' _ rfl)
  · exact natural?_toDigits n

theorem int64?_toString (n : Int64) : int64? (toString n.toInt) = some n := by
  unfold int64?
  rw [signed?_toString]
  exact (if_pos ⟨n.minValue_le_toInt, n.toInt_le⟩).trans (congrArg some n.ofInt_toInt)

theorem uint64?_toString (n : UInt64) : uint64? (toString n.toNat) = some n := by
  unfold uint64?
  rw [unsigned?_toString]
  exact (if_pos n.toNat_lt_size).trans (congrArg some n.ofNat_toNat)

/-! ## 3. Zeros and a sign in front -/

/-- The digits of a number with zeros in front of them. -/
def zeroPadded (zeros n : Nat) : String :=
  String.ofList (List.replicate zeros '0') ++ toString n

/-- The ways to write a whole number: its digits, any number of zeros in front of them, and a sign in
front of these. A plus sign may be left out. -/
inductive Numeral : Int → String → Prop
  | unsigned (zeros n : Nat) : Numeral n (zeroPadded zeros n)
  | plus (zeros n : Nat) : Numeral n ("+" ++ zeroPadded zeros n)
  | minus (zeros n : Nat) : Numeral (-n) ("-" ++ zeroPadded zeros n)

theorem toList_zeroPadded (zeros n : Nat) :
    (zeroPadded zeros n).toList = List.replicate zeros '0' ++ Nat.toDigits 10 n := by
  rw [zeroPadded, String.toList_append, String.toList_ofList, toList_toString]

theorem decimal_zeros_append (zeros : Nat) (cs : List Char) :
    decimal (List.replicate zeros '0' ++ cs) = decimal cs := by
  induction zeros with
  | zero => rfl
  | succ zeros ih => exact ih

theorem isDigit_of_mem_zeroPadded (zeros n : Nat) :
    ∀ c ∈ (zeroPadded zeros n).toList, c.isDigit = true := by
  rw [toList_zeroPadded, List.forall_mem_append]
  exact ⟨fun c hc => List.eq_of_mem_replicate hc ▸ rfl,
    fun c => Nat.isDigit_of_mem_toDigits (by decide) (by decide)⟩

theorem natural?_zeroPadded (zeros n : Nat) : natural? (zeroPadded zeros n).toList = some n := by
  have hne : (zeroPadded zeros n).toList ≠ [] := by
    rw [toList_zeroPadded]
    exact List.append_ne_nil_of_right_ne_nil _ Nat.toDigits_ne_nil
  have hdigits := List.all_eq_true.mpr (isDigit_of_mem_zeroPadded zeros n)
  rw [natural?, if_pos ⟨hne, hdigits⟩, toList_zeroPadded, decimal_zeros_append, decimal_toDigits]

/-- Digits by themselves have no sign. -/
theorem signed?_of_isDigit {cs : List Char} (h : ∀ c ∈ cs, c.isDigit = true) :
    signed? cs = (natural? cs).map Int.ofNat := by
  unfold signed?
  split
  · exact absurd (h '-' List.mem_cons_self) (by decide)
  · exact absurd (h '+' List.mem_cons_self) (by decide)
  · rfl

theorem signed?_of_numeral {n : Int} {text : String} (h : Numeral n text) :
    signed? text.toList = some n := by
  cases h with
  | unsigned zeros n =>
    rw [signed?_of_isDigit (isDigit_of_mem_zeroPadded zeros n), natural?_zeroPadded]
    rfl
  | plus zeros n =>
    have hsign : ("+" ++ zeroPadded zeros n).toList = '+' :: (zeroPadded zeros n).toList :=
      String.toList_append
    rw [hsign, signed?, natural?_zeroPadded]
    rfl
  | minus zeros n =>
    have hsign : ("-" ++ zeroPadded zeros n).toList = '-' :: (zeroPadded zeros n).toList :=
      String.toList_append
    rw [hsign, signed?, natural?_zeroPadded]
    rfl

section Range

variable {n : Int} {text : String} (h : Numeral n text)
include h

theorem Numeral.ne_empty : text ≠ "" := by
  rintro rfl
  cases signed?_of_numeral h

/-- A number begins with a digit or a sign. -/
theorem Numeral.head?_ne_equals : text.toList.head? ≠ some '=' := by
  intro hhead
  obtain ⟨cs, hcs⟩ := List.head?_eq_some_iff.mp hhead
  have hsigned := signed?_of_numeral h
  have hnone : natural? ('=' :: cs) = none := if_neg fun hdigits => by
    rw [List.all_cons] at hdigits
    cases hdigits.2
  rw [hcs, signed?, hnone] at hsigned
  · cases hsigned
  · rintro _ ⟨⟩
  · rintro _ ⟨⟩

theorem int64?_of_numeral (hn : Int64.minValue.toInt ≤ n ∧ n ≤ Int64.maxValue.toInt) :
    int64? text = some (Int64.ofInt n) := by
  unfold int64?
  rw [signed?_of_numeral h]
  exact if_pos hn

theorem int64?_eq_none (hn : ¬ (Int64.minValue.toInt ≤ n ∧ n ≤ Int64.maxValue.toInt)) :
    int64? text = none := by
  unfold int64?
  rw [signed?_of_numeral h]
  exact if_neg hn

end Range

end ByteScan.Text

import ByteScan.Proofs.HexBytes.Decoding

/-!
# Two texts with a space between them

The digits of two texts with a space between them are those of the first text and then those of the
second. If each of the texts writes bytes, both together write the bytes of the first and then those of
the second. The space does not separate bytes, though. Where the first text has a digit left over, and
the second one too, these two digits are a byte.

* `LeavesDigit`: a text whose digits are not all used up by pairs.

Results:
1. `digits_append_space`: the digits of both texts.
2. `LeavesDigit.exists_concat`, `LeavesDigit.exists_cons`: the digit that is left over, at either end.
3. `read?_append_space`: when both texts together are read, and as what.
   `not_read?_append_space_iff`: a space does not separate bytes.
-/

namespace ByteScan.HexBytes

/-- The text has digits only, and one of them is left over when they are taken in pairs. -/
def LeavesDigit (text : String) : Prop :=
  (digits text).length % 2 = 1 ∧ ∀ c ∈ digits text, Text.IsHexDigit c

/-! ## 1. The digits of both texts -/

theorem digits_append_space (front back : String) :
    digits (front ++ " " ++ back) = digits front ++ digits back := by
  have hchars : (front ++ " " ++ back).toList = front.toList ++ ' ' :: back.toList := by
    rw [String.toList_append, String.toList_append, List.append_assoc]
    rfl
  rw [digits, hchars, Text.fields_append_blank rfl, List.flatMap_append, digits, digits]

/-- Some texts are read, and some leave a digit, but none does both. -/
theorem LeavesDigit.read?_eq_none {text : String} (h : LeavesDigit text) : read? text = none := by
  rw [← Option.not_isSome_iff_eq_none, read?, isSome_ofPairs?_iff]
  intro hread
  have hodd := h.1
  omega

/-! ## 2. The digit that is left over -/

/-- An even number of digits writes some bytes. -/
theorem exists_spells {cs : List Char} (heven : cs.length % 2 = 0)
    (hdigits : ∀ c ∈ cs, Text.IsHexDigit c) : ∃ bytes, Spells bytes cs := by
  obtain ⟨bytes, hbytes⟩ := Option.isSome_iff_exists.mp (isSome_ofPairs?_iff.mpr ⟨heven, hdigits⟩)
  exact ⟨bytes, ofPairs?_eq_some_iff.mp hbytes⟩

section LeftOver

variable {text : String} (h : LeavesDigit text)
include h

/-- The last digit as the one that is left over. -/
theorem LeavesDigit.exists_concat :
    ∃ cs high bytes, digits text = cs ++ [high] ∧ Text.IsHexDigit high ∧ Spells bytes cs := by
  obtain ⟨hodd, hdigits⟩ := h
  have hne : digits text ≠ [] := by
    intro hnil
    rw [hnil] at hodd
    cases hodd
  obtain ⟨cs, high, heq⟩ : ∃ cs high, digits text = cs ++ [high] :=
    ⟨_, _, (List.dropLast_concat_getLast hne).symm⟩
  rw [heq, List.length_append, List.length_singleton] at hodd
  rw [heq, List.forall_mem_append, List.forall_mem_singleton] at hdigits
  obtain ⟨bytes, hbytes⟩ := exists_spells (by omega) hdigits.1
  exact ⟨cs, high, bytes, heq, hdigits.2, hbytes⟩

/-- The first digit as the one that is left over. -/
theorem LeavesDigit.exists_cons :
    ∃ low cs bytes, digits text = low :: cs ∧ Text.IsHexDigit low ∧ Spells bytes cs := by
  obtain ⟨hodd, hdigits⟩ := h
  cases heq : digits text with
  | nil =>
    rw [heq] at hodd
    cases hodd
  | cons low cs =>
    rw [heq, List.length_cons] at hodd
    rw [heq, List.forall_mem_cons] at hdigits
    obtain ⟨bytes, hbytes⟩ := exists_spells (by omega) hdigits.2
    exact ⟨low, cs, bytes, rfl, hdigits.1, hbytes⟩

end LeftOver

/-! ## 3. Both texts -/

theorem isSome_read?_append_space (front back : String) :
    (read? (front ++ " " ++ back)).isSome = true ↔
      ((read? front).isSome = true ∧ (read? back).isSome = true) ∨
        (LeavesDigit front ∧ LeavesDigit back) := by
  simp only [read?, isSome_ofPairs?_iff, digits_append_space, List.length_append,
    List.forall_mem_append, LeavesDigit]
  constructor
  · rintro ⟨heven, hfront, hback⟩
    rcases Nat.mod_two_eq_zero_or_one (digits front).length with hzero | hone
    · exact .inl ⟨⟨hzero, hfront⟩, by omega, hback⟩
    · exact .inr ⟨⟨hone, hfront⟩, by omega, hback⟩
  · rintro (⟨⟨hzero, hfront⟩, hzero', hback⟩ | ⟨⟨hone, hfront⟩, hone', hback⟩)
    · exact ⟨by omega, hfront, hback⟩
    · exact ⟨by omega, hfront, hback⟩

/-- Two texts with a space between them are read if both are read, or if both have digits only and an
odd number of them. In the first case they are read as the bytes of the one and then those of the
other. In the second case neither is read by itself, and the last digit of the first text makes a byte
with the first digit of the second. -/
theorem read?_append_space (front back : String) :
    ((read? (front ++ " " ++ back)).isSome = true ↔
        ((read? front).isSome = true ∧ (read? back).isSome = true) ∨
          (LeavesDigit front ∧ LeavesDigit back)) ∧
      (∀ bytes more, read? front = some bytes → read? back = some more →
        read? (front ++ " " ++ back) = some (bytes ++ more)) ∧
      (LeavesDigit front → LeavesDigit back →
        read? front = none ∧ read? back = none ∧
          ∃ cs high low ds bytes b more, digits front = cs ++ [high] ∧ digits back = low :: ds ∧
            Spells bytes cs ∧ Spells [b] [high, low] ∧ Spells more ds ∧
            read? (front ++ " " ++ back) = some (bytes ++ b :: more)) := by
  refine ⟨isSome_read?_append_space front back, fun bytes more hfront hback => ?_,
    fun hfront hback => ⟨hfront.read?_eq_none, hback.read?_eq_none, ?_⟩⟩
  · rw [read?, digits_append_space, ofPairs?_eq_some_iff]
    exact (ofPairs?_eq_some_iff.mp hfront).append (ofPairs?_eq_some_iff.mp hback)
  · obtain ⟨cs, high, bytes, hcs, hhigh, hbytes⟩ := hfront.exists_concat
    obtain ⟨low, ds, more, hds, hlow, hmore⟩ := hback.exists_cons
    obtain ⟨b, hb, -⟩ := Text.exists_byte? hhigh hlow
    -- The digit left over in front and the one left over behind make one byte.
    have hmiddle : Spells (b :: more) (high :: low :: ds) :=
      spells_cons_cons.mpr ⟨b, more, hb, hmore, rfl⟩
    have hbyte : Spells [b] [high, low] :=
      spells_cons_cons.mpr ⟨b, [], hb, spells_nil_right.mpr rfl, rfl⟩
    refine ⟨cs, high, low, ds, bytes, b, more, hcs, hds, hbytes, hbyte, hmore, ?_⟩
    rw [read?, digits_append_space, ofPairs?_eq_some_iff, hcs, hds, List.append_assoc]
    exact hbytes.append hmiddle

/-- Three digits and one digit, and two bytes and one byte. -/
theorem read?_append_space_558_B :
    LeavesDigit "0x558" ∧ LeavesDigit "B" ∧ read? "0x558" = none ∧ read? "B" = none ∧
      (read? ("0x558" ++ " " ++ "B")).isSome = true ∧
      read? "55 8B" = some [0x55, 0x8B] ∧ read? "ec" = some [0xEC] ∧
      read? ("55 8B" ++ " " ++ "ec") = some [0x55, 0x8B, 0xEC] := by
  have hfront : LeavesDigit "0x558" := ⟨by decide, List.all_iff_forall_prop.mp (by decide)⟩
  have hback : LeavesDigit "B" := ⟨by decide, List.all_iff_forall_prop.mp (by decide)⟩
  have hbytes : read? "55 8B" = some [0x55, 0x8B] := by decide
  have hmore : read? "ec" = some [0xEC] := by decide
  obtain ⟨hiff, -, hhalves⟩ := read?_append_space "0x558" "B"
  obtain ⟨-, hwhole, -⟩ := read?_append_space "55 8B" "ec"
  obtain ⟨hnone, hnone', -⟩ := hhalves hfront hback
  exact ⟨hfront, hback, hnone, hnone', hiff.mpr (.inr ⟨hfront, hback⟩), hbytes, hmore,
    hwhole _ _ hbytes hmore⟩

/-- A space does not separate bytes: `5 5` is read as one byte, and `5` is not read. -/
theorem not_read?_append_space_iff :
    ¬ ∀ front back : String,
      ((read? (front ++ " " ++ back)).isSome = true ↔
        (read? front).isSome = true ∧ (read? back).isSome = true) ∧
      ∀ bytes more, read? front = some bytes → read? back = some more →
        read? (front ++ " " ++ back) = some (bytes ++ more) := by
  intro h
  have hjoined : (read? ("5" ++ " " ++ "5")).isSome = true := by decide
  have hsingle : read? "5" = none := by decide
  have hread := ((h "5" "5").1.mp hjoined).1
  rw [hsingle] at hread
  cases hread

end ByteScan.HexBytes

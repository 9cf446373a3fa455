import ByteScan.Proofs.Search.Machine

/-!
# Comparing from the anchor on

A search compares the slots from the anchor on, with the anchor at a place where its byte was found.
`Signature.matchesAt` compares all slots, with the first of them at a start. The two look at
different parts of the region, of the bytes and of the flags, and each asks in its own way whether
the region is long enough. Nevertheless they always say the same: the slots before the anchor take
any byte, and an anchor at `found` leaves room for them as soon as `found` is at least the anchor's
index.

Results:
1. `Signature.firstExact?_mask`: the anchor is the first exact position of the mask.
   `Signature.matchesAt_iff_mask`: a match, by the mask and the bytes. `Signature.accept_tail_of_le`:
   the comparison from the anchor on.
2. `Machine.matchesAt_eq`: the comparison of all slots on words of 64 bits. `Machine.fitsAt_of_le`:
   what it has to do with the one from the anchor on.
3. `Machine.fitsAt_eq_matchesAt`: the two comparisons, with and without a bound on positions.
-/

namespace ByteScan

/-! ## 1. Slots and mask -/

namespace Signature

variable {s : Signature} {region : List UInt8}

theorem firstExact?_mask (s : Signature) : s.mask.firstExact? = some s.anchorIndex := by
  have hflags : MaskFlag.isExact ∘ Slot.flag = Slot.isExact := funext Slot.isExact_flag
  rw [Mask.firstExact?, mask, List.findIdx?_map, hflags, List.findIdx?_eq_some_iff_findIdx_eq]
  exact ⟨s.anchorIndex_lt_length, rfl⟩

/-- What an exact slot asks of the byte over it can be read off the mask and the bytes. -/
theorem forall_exact_iff (s : Signature) (i : Nat) (found : Option UInt8) :
    (∀ b, s.slots[i]? = some (.exact b) → found = some b) ↔
      (s.mask.isExact i = true → found = s.bytes[i]?) := by
  rw [Mask.isExact, mask, bytes, List.getElem?_map, List.getElem?_map]
  cases s.slots[i]? with
  | none => simp
  | some slot =>
    cases slot with
    | any => simp [Slot.flag, MaskFlag.isExact]
    | exact b => simp [Slot.flag, MaskFlag.isExact, Slot.byteOrZero, Slot.byte?]

theorem matchesAt_iff_mask {start : Nat} :
    s.matchesAt region start = true ↔
      start + s.length ≤ region.length ∧
        ∀ i, s.mask.isExact i = true → region[start + i]? = s.bytes[i]? := by
  rw [matchesAt_iff]
  exact and_congr_right' (forall_congr' fun i => s.forall_exact_iff i region[start + i]?)

theorem accept_tail_of_le {found : Nat} (h : s.anchorIndex ≤ found) :
    Slot.accept s.tail (region.drop found) = s.matchesAt region (found - s.anchorIndex) := by
  rw [← s.accept_tail region, Nat.sub_add_cancel h]

end Signature

/-! ## 2. The comparisons on words -/

namespace Machine

/-- Whether all slots fit where the first of them stands at `start`. There is no step in this that
can be a trap. -/
def matchesAt (s : Signature) (region : List UInt8) (start : UInt64) : Bool :=
  match (add? start (size s.bytes)).bind (slice? region start) with
  | none => false
  | some window =>
    ((s.bytes.zip s.mask.flags).zip window).all fun ((expected, flag), actual) =>
      !flag.isExact || expected == actual

section Words

variable {s : Signature} {region : List UInt8}
variable (hs : s.length ≤ longest) (hregion : region.length ≤ longest)
include hs hregion

theorem matchesAt_eq (start : UInt64) :
    matchesAt s region start = s.matchesAt region start.toNat := by
  rw [matchesAt, window?_eq hregion, toNat_size_bytes hs]
  rcases Nat.lt_or_ge region.length (start.toNat + s.length) with hshort | hfits
  · -- There is no window, and the slots reach over the end of the region.
    rw [if_neg (Nat.not_le_of_lt hshort)]
    exact (accept_drop_of_short s.length_pos hshort).symm
  · rw [if_pos hfits]
    exact all_window_eq_accept hfits

/-- With the anchor at its own index or behind it, the comparison from the anchor on is that of all
slots at the start which the anchor belongs to. -/
theorem fitsAt_of_le {found : UInt64} (hfound : anchorIndex s ≤ found) :
    fitsAt s region found = pure (matchesAt s region (found - anchorIndex s)) := by
  have hle := UInt64.le_iff_toNat_le.mp hfound
  have hanchor := toNat_anchorIndex hs
  rw [hanchor] at hle
  rw [fitsAt_eq hs hregion, matchesAt_eq hs hregion, UInt64.toNat_sub_of_le _ _ hfound, hanchor,
    Signature.accept_tail_of_le hle]

end Words

/-! ## 3. The comparisons of a signature -/

/-- The anchor is the first exact position. A signature matches at a start if its last slot is still
in the region and the region has the signature's byte at each exact position. With the anchor at
`found`, not before its own index, comparing the slots from the anchor on says whether the signature
matches where that puts its first slot. All this holds for starts and places of any size. On words of
64 bits both comparisons come to the same answers without a trap, up to the greatest word, also where
the end of the slots is no word any more. -/
theorem fitsAt_eq_matchesAt (s : Signature) (region : List UInt8) :
    s.mask.firstExact? = some s.anchorIndex ∧
      (∀ start, s.matchesAt region start = true ↔
        start + s.length ≤ region.length ∧
          ∀ i, s.mask.isExact i = true → region[start + i]? = s.bytes[i]?) ∧
      (∀ found, s.anchorIndex ≤ found →
        Slot.accept s.tail (region.drop found) = s.matchesAt region (found - s.anchorIndex)) ∧
      (s.length ≤ longest → region.length ≤ longest →
        (∀ start : UInt64, matchesAt s region start = s.matchesAt region start.toNat) ∧
          ∀ found : UInt64, anchorIndex s ≤ found →
            fitsAt s region found = pure (matchesAt s region (found - anchorIndex s))) := by
  refine ⟨s.firstExact?_mask, fun start => Signature.matchesAt_iff_mask,
    fun found hfound => Signature.accept_tail_of_le hfound, fun hs hregion => ⟨?_, ?_⟩⟩
  · exact matchesAt_eq hs hregion
  · exact fun found hfound => fitsAt_of_le hs hregion hfound

/-- The anchor of `?? 55 C3` fits at 1, which is a match at 0. With the anchor at the greatest word,
the end of the slots is no word. -/
theorem fitsAt_any_55_C3 :
    let s : Signature := ⟨[.any, .exact 0x55, .exact 0xC3], 0, rfl⟩
    let region : List UInt8 := [0x00, 0x55, 0xC3]
    s.anchorIndex ≤ 1 ∧ Slot.accept s.tail (region.drop 1) = s.matchesAt region 0 ∧
      s.length ≤ longest ∧ region.length ≤ longest ∧
      anchorIndex s ≤ 1 ∧ fitsAt s region 1 = pure true ∧
      anchorIndex s ≤ 0xFFFFFFFFFFFFFFFF ∧ fitsAt s region 0xFFFFFFFFFFFFFFFF = pure false := by
  intro s region
  have hplace : s.anchorIndex ≤ 1 := by decide
  have hs : s.length ≤ longest := by decide
  have hregion : region.length ≤ longest := by decide
  have hone : anchorIndex s ≤ 1 := by decide
  have hlast : anchorIndex s ≤ 0xFFFFFFFFFFFFFFFF := by decide
  have hmatch : matchesAt s region (1 - anchorIndex s) = true := by decide
  have hnone : matchesAt s region (0xFFFFFFFFFFFFFFFF - anchorIndex s) = false := by decide
  obtain ⟨_, _, hplaces, hwords⟩ := fitsAt_eq_matchesAt s region
  obtain ⟨_, hfits⟩ := hwords hs hregion
  exact ⟨hplace, hplaces 1 hplace, hs, hregion, hone, hmatch ▸ hfits 1 hone, hlast,
    hnone ▸ hfits _ hlast⟩

end Machine

end ByteScan

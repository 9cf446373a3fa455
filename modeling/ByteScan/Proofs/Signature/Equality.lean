import ByteScan.Proofs.Signature.Placement

/-!
# Equal signatures

Two signatures are equal when they have the same slots and the same offset. This module says that
nothing less than that can be seen from outside: equal signatures are those that are reported alike
and match alike wherever they are laid.

Results:
1. `Slot.eq_of_admits_eq`, `Slot.eq_of_accept_eq`: a slot is known by the bytes that it admits, and a
   list of slots by the byte lists that it accepts.
2. `Signature.slots_eq_zipWith`: the slots are known by the bytes and the mask.
   `Signature.beq_iff_matchesAt`: equality is what a match at a start can tell, and it is equality of
   bytes, mask, anchor index and offset.
-/

namespace ByteScan

/-! ## 1. Slots -/

namespace Slot

theorem admits_byteOrZero (slot : Slot) : slot.admits slot.byteOrZero = true := by
  cases slot with
  | any => rfl
  | exact b => exact admits_exact.mpr rfl

theorem accept_map_byteOrZero (slots : List Slot) : accept slots (slots.map byteOrZero) = true := by
  induction slots with
  | nil => rfl
  | cons slot slots ih => rw [List.map_cons, accept, admits_byteOrZero, ih, Bool.and_self]

theorem admits_exact_succ (b : UInt8) : (exact b).admits (b + 1) = false := by
  simp [admits]

theorem eq_of_admits_eq {slot other : Slot} (h : ∀ b, slot.admits b = other.admits b) :
    slot = other := by
  cases slot with
  | any =>
    cases other with
    | any => rfl
    | exact c =>
      have hbyte : true = (exact c).admits (c + 1) := h (c + 1)
      rw [admits_exact_succ] at hbyte
      cases hbyte
  | exact b =>
    cases other with
    | any =>
      have hbyte : (exact b).admits (b + 1) = true := h (b + 1)
      rw [admits_exact_succ] at hbyte
      cases hbyte
    | exact c =>
      have hbyte : (exact c).admits b = true := (h b).symm.trans (admits_exact.mpr rfl)
      rw [admits_exact.mp hbyte]

/-- The first slots admit the same bytes: whatever one of them admits can be continued to a list that
its slots accept, so the other slots accept that list too. -/
theorem admits_of_accept_eq {slot other : Slot} {slots others : List Slot}
    (h : ∀ bytes, accept (slot :: slots) bytes = accept (other :: others) bytes) {b : UInt8}
    (hb : slot.admits b = true) : other.admits b = true := by
  have haccept := h (b :: slots.map byteOrZero)
  rw [accept, accept, hb, accept_map_byteOrZero, Bool.and_self] at haccept
  exact (Bool.and_eq_true_iff.mp haccept.symm).1

theorem eq_of_accept_eq {slots others : List Slot}
    (h : ∀ bytes, accept slots bytes = accept others bytes) : slots = others := by
  induction slots generalizing others with
  | nil =>
    cases others with
    | nil => rfl
    | cons other others => exact absurd (h []) (by simp [accept])
  | cons slot slots ih =>
    cases others with
    | nil => exact absurd (h []) (by simp [accept])
    | cons other others =>
      have hslot : slot = other := eq_of_admits_eq fun b => Bool.eq_iff_iff.mpr
        ⟨admits_of_accept_eq h, admits_of_accept_eq fun bytes => (h bytes).symm⟩
      subst hslot
      refine congrArg (slot :: ·) (ih fun bytes => ?_)
      simpa [accept, admits_byteOrZero] using h (slot.byteOrZero :: bytes)

theorem ofFlag_flag (slot : Slot) : ofFlag slot.flag slot.byteOrZero = slot := by
  cases slot <;> rfl

theorem zipWith_ofFlag (slots : List Slot) :
    List.zipWith ofFlag (slots.map flag) (slots.map byteOrZero) = slots := by
  induction slots with
  | nil => rfl
  | cons slot slots ih => rw [List.map_cons, List.map_cons, List.zipWith_cons_cons, ofFlag_flag, ih]

end Slot

/-! ## 2. Signatures -/

namespace Signature

theorem slots_eq_zipWith (s : Signature) : s.slots = List.zipWith Slot.ofFlag s.mask.flags s.bytes :=
  (Slot.zipWith_ofFlag s.slots).symm

theorem eq_of_slots_eq {a b : Signature} (hslots : a.slots = b.slots) (hoffset : a.offset = b.offset) :
    a = b := by
  cases a
  cases b
  cases hslots
  cases hoffset
  rfl

/-- Signatures are equal exactly if they have the same offset and match at the same starts of all
regions. The bytes, the mask, the anchor index and the offset tell no more and no less. -/
theorem beq_iff_matchesAt (a b : Signature) :
    ((a == b) = true ↔
        a.offset = b.offset ∧
          ∀ region start, a.matchesAt region start = b.matchesAt region start) ∧
      ((a == b) = true ↔
        a.bytes = b.bytes ∧ a.mask = b.mask ∧ a.anchorIndex = b.anchorIndex ∧
          a.offset = b.offset) := by
  rw [beq_iff_eq]
  refine ⟨⟨?_, ?_⟩, ⟨?_, ?_⟩⟩
  · rintro rfl
    exact ⟨rfl, fun _ _ => rfl⟩
  · rintro ⟨hoffset, hmatch⟩
    -- a match at the start of a region is acceptance of that region
    exact eq_of_slots_eq (Slot.eq_of_accept_eq fun region => hmatch region 0) hoffset
  · rintro rfl
    exact ⟨rfl, rfl, rfl, rfl⟩
  · rintro ⟨hbytes, hmask, _, hoffset⟩
    exact eq_of_slots_eq (by rw [slots_eq_zipWith, hmask, hbytes, ← slots_eq_zipWith]) hoffset

end Signature

end ByteScan

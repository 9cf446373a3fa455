import ByteScan.Signature.Basic

/-!
# Where a signature fits

A search looks at the anchor and at the slots behind it only. This module says what that comparison
has to do with a match of the whole signature.

Results:
1. `Slot.accept_iff`: a list of slots accepts bytes when there are enough of them and each exact
   slot stands over its own byte.
2. `Signature.slots_eq_append`: the slots are wildcards up to the anchor, then the tail, and the
   tail begins with the anchor byte (`tail_eq_cons`). `Signature.matchesAt_iff`: a match at a start,
   position by position. `Signature.accept_tail`: the tail fits at the anchor's place exactly when the
   whole signature matches.
-/

namespace ByteScan

/-! ## 1. Lists of slots -/

namespace Slot

theorem admits_exact {b c : UInt8} : (exact b).admits c = true ↔ b = c := by
  rw [admits, beq_iff_eq]

theorem accept_iff {slots : List Slot} {bytes : List UInt8} :
    accept slots bytes = true ↔
      slots.length ≤ bytes.length ∧
        ∀ (i : Nat) (b : UInt8), slots[i]? = some (exact b) → bytes[i]? = some b := by
  induction slots generalizing bytes with
  | nil => simp [accept]
  | cons slot slots ih =>
    cases bytes with
    | nil => simp [accept]
    | cons byte bytes =>
      rw [accept, Bool.and_eq_true, ih, List.length_cons, List.length_cons]
      constructor
      · rintro ⟨hslot, hlen, hall⟩
        refine ⟨by omega, fun i b hi => ?_⟩
        cases i with
        | zero =>
          obtain rfl : slot = exact b := by simpa using hi
          rw [admits_exact.mp hslot]
          rfl
        | succ i => exact hall i b (by simpa using hi)
      · rintro ⟨hlen, hall⟩
        refine ⟨?_, by omega, fun i b hi => ?_⟩
        · cases slot with
          | any => rfl
          | exact b =>
            have hbyte := hall 0 b rfl
            exact admits_exact.mpr (Option.some.inj hbyte).symm
        · have hbyte := hall (i + 1) b (by simpa using hi)
          simpa using hbyte

/-- Wildcards in front of other slots only take bytes away. The other slots must not be empty: with
too few bytes for the wildcards, an empty list would still accept what is left. -/
theorem accept_replicate_append {slots : List Slot} (h : slots ≠ []) (n : Nat)
    (bytes : List UInt8) :
    accept (List.replicate n any ++ slots) bytes = accept slots (bytes.drop n) := by
  induction n generalizing bytes with
  | zero => rfl
  | succ n ih =>
    cases bytes with
    | nil =>
      obtain ⟨slot, rest, rfl⟩ := List.exists_cons_of_ne_nil h
      rfl
    | cons byte bytes =>
      rw [List.replicate_succ, List.cons_append, accept, ih]
      rfl

/-- The first exact slot stands where the search for it stops. -/
theorem getElem?_findIdx_isExact {slots : List Slot} {b : UInt8}
    (h : slots.findSome? byte? = some b) : slots[slots.findIdx isExact]? = some (exact b) := by
  induction slots with
  | nil => simp at h
  | cons slot slots ih =>
    cases slot with
    | any =>
      have hrest : slots.findSome? byte? = some b := by
        simpa [List.findSome?_cons, byte?] using h
      simpa [List.findIdx_cons, isExact, byte?] using ih hrest
    | exact c =>
      obtain rfl : c = b := by simpa [List.findSome?_cons, byte?] using h
      simp [List.findIdx_cons, isExact, byte?]

theorem isExact_iff {slot : Slot} : slot.isExact = true ↔ ∃ b, slot = exact b := by
  cases slot with
  | any => simp [isExact, byte?]
  | exact b => simp [isExact, byte?]

theorem isExact_flag (slot : Slot) : slot.flag.isExact = slot.isExact := by
  cases slot <;> rfl

end Slot

/-! ## 2. Signatures -/

namespace Signature

theorem slots_anchorIndex (s : Signature) :
    s.slots[s.anchorIndex]? = some (.exact s.anchorByte) := by
  apply Slot.getElem?_findIdx_isExact
  exact (Option.some_get s.anchored).symm

theorem slots_of_lt_anchorIndex {s : Signature} {i : Nat} (h : i < s.anchorIndex) :
    s.slots[i]? = some .any := by
  have hlen : i < s.slots.length := Nat.lt_trans h s.anchorIndex_lt_length
  have hexact : s.slots[i].isExact = false := by simpa using List.not_of_lt_findIdx h
  rw [List.getElem?_eq_getElem hlen]
  cases hslot : s.slots[i] with
  | any => rfl
  | exact b => simp [hslot, Slot.isExact, Slot.byte?] at hexact

/-- An exact slot stands at the anchor or behind it. -/
theorem anchorIndex_le_of_exact {s : Signature} {i : Nat} {b : UInt8}
    (h : s.slots[i]? = some (.exact b)) : s.anchorIndex ≤ i := by
  rcases Nat.lt_or_ge i s.anchorIndex with hlt | hge
  · rw [slots_of_lt_anchorIndex hlt] at h
    simp at h
  · exact hge

theorem take_anchorIndex (s : Signature) :
    s.slots.take s.anchorIndex = List.replicate s.anchorIndex .any := by
  have hle : s.anchorIndex ≤ s.slots.length := Nat.le_of_lt s.anchorIndex_lt_length
  rw [List.eq_replicate_iff]
  refine ⟨by rw [List.length_take, Nat.min_eq_left hle], fun slot hslot => ?_⟩
  obtain ⟨i, hi⟩ := List.mem_iff_getElem?.mp hslot
  rw [List.getElem?_take] at hi
  split at hi
  · next hlt =>
    rw [slots_of_lt_anchorIndex hlt] at hi
    exact (Option.some.inj hi).symm
  · simp at hi

theorem slots_eq_append (s : Signature) :
    s.slots = List.replicate s.anchorIndex .any ++ s.tail := by
  rw [← s.take_anchorIndex, tail, List.take_append_drop]

theorem tail_eq_cons (s : Signature) :
    s.tail = .exact s.anchorByte :: s.slots.drop (s.anchorIndex + 1) := by
  have hanchor := List.getElem?_eq_some_iff.mp s.slots_anchorIndex
  obtain ⟨hlt, hslot⟩ := hanchor
  rw [tail, List.drop_eq_getElem_cons hlt, hslot]

theorem length_tail (s : Signature) : s.tail.length = s.length - s.anchorIndex := by
  rw [tail, List.length_drop, length]

/-- The exact slots are the anchor and those behind it. -/
theorem exactCount_mask (s : Signature) :
    s.mask.exactCount = (s.slots.drop (s.anchorIndex + 1)).countP Slot.isExact + 1 := by
  have hflags : MaskFlag.isExact ∘ Slot.flag = Slot.isExact := funext Slot.isExact_flag
  have hwild : (List.replicate s.anchorIndex Slot.any).countP Slot.isExact = 0 := by
    simp [List.countP_replicate, Slot.isExact, Slot.byte?]
  have hslots := s.slots_eq_append
  rw [tail_eq_cons] at hslots
  rw [Mask.exactCount, mask, List.countP_map, hflags, hslots, List.countP_append, hwild,
    List.countP_cons_of_pos rfl, ← hslots, Nat.zero_add]

theorem matchesAt_iff {s : Signature} {region : List UInt8} {start : Nat} :
    s.matchesAt region start = true ↔
      start + s.length ≤ region.length ∧
        ∀ (i : Nat) (b : UInt8), s.slots[i]? = some (.exact b) → region[start + i]? = some b := by
  have hpos := s.length_pos
  rw [matchesAt, Slot.accept_iff, List.length_drop]
  simp only [List.getElem?_drop]
  constructor
  · rintro ⟨hlen, hall⟩
    refine ⟨?_, hall⟩
    rw [length] at hpos ⊢
    omega
  · rintro ⟨hlen, hall⟩
    refine ⟨?_, hall⟩
    rw [length] at hlen
    omega

/-- Comparing the tail at the anchor's place is a comparison of the whole signature. -/
theorem accept_tail (s : Signature) (region : List UInt8) (start : Nat) :
    Slot.accept s.tail (region.drop (start + s.anchorIndex)) = s.matchesAt region start := by
  have hne : s.tail ≠ [] := by
    rw [tail_eq_cons]
    exact List.cons_ne_nil _ _
  rw [matchesAt, slots_eq_append, Slot.accept_replicate_append hne, List.drop_drop]

end Signature

end ByteScan

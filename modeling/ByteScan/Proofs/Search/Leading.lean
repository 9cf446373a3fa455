import ByteScan.Proofs.Search.Script

/-!
# Wildcards in front

Wildcards at the front of a signature ask for bytes in front of a match, and for nothing of these
bytes. So a signature with `n` more wildcards is found in a region exactly where the signature is
found in the region without its first `n` bytes, whatever these bytes are.

Results:
1. `anchorIndex_withLeading`, `anchorByte_withLeading`, `jump_withLeading`: the anchor moves by the
   number of wildcards, and the jump stays.
2. `walk_withLeading`: the walk over the longer region. `walk_front`: a walk never looks at the bytes
   in front of the first place where an anchor can stand.
3. `positions_withLeading`: what follows for everything that a search gives, steps of cursors
   included.
-/

namespace ByteScan.Signature

/-! ## 1. More wildcards -/

theorem findSome?_replicate_any_append (n : Nat) (slots : List Slot) :
    (List.replicate n Slot.any ++ slots).findSome? Slot.byte? = slots.findSome? Slot.byte? := by
  induction n with
  | zero => rfl
  | succ n ih => exact ih

/-- The signature with `n` wildcards in front of its slots. -/
def withLeading (s : Signature) (n : Nat) : Signature where
  slots := List.replicate n .any ++ s.slots
  offset := s.offset
  anchored := (findSome?_replicate_any_append n s.slots).symm ▸ s.anchored

section Anchor

variable (s : Signature) (n : Nat)

theorem length_withLeading : (s.withLeading n).length = n + s.length := by
  simp [withLeading, length]

theorem anchorIndex_withLeading : (s.withLeading n).anchorIndex = n + s.anchorIndex := by
  have hwild : (List.replicate n Slot.any).findIdx Slot.isExact = n := by
    rw [List.findIdx_eq_length_of_false, List.length_replicate]
    intro slot hslot
    rw [List.eq_of_mem_replicate hslot]
    rfl
  rw [anchorIndex, withLeading, List.findIdx_append, hwild, List.length_replicate,
    if_neg (Nat.lt_irrefl n), Nat.add_comm]
  rfl

theorem anchorByte_withLeading : (s.withLeading n).anchorByte = s.anchorByte := by
  simp only [anchorByte, withLeading, findSome?_replicate_any_append]

theorem jump_withLeading : (s.withLeading n).jump = s.jump := by
  rw [jump, jump, length_withLeading, anchorIndex_withLeading, Nat.add_sub_add_left]

end Anchor

/-! ## 2. The two walks -/

section Walks

variable (s : Signature) (front region : List UInt8) (start : Nat)

theorem isCandidate_withLeading :
    (s.withLeading front.length).isCandidate (front ++ region) start =
      s.isCandidate region start := by
  have hplace : start + (front.length + s.anchorIndex) =
      front.length + (start + s.anchorIndex) := by omega
  rw [Bool.eq_iff_iff, isCandidate_iff, isCandidate_iff, length_withLeading,
    anchorIndex_withLeading, anchorByte_withLeading, List.length_append, hplace,
    List.getElem?_append_right (Nat.le_add_right _ _), Nat.add_sub_cancel_left]
  exact and_congr_left fun _ => by omega

theorem matchesAt_withLeading :
    (s.withLeading front.length).matchesAt (front ++ region) start =
      s.matchesAt region start := by
  have hne : s.slots ≠ [] := List.ne_nil_of_length_pos s.length_pos
  show Slot.accept (List.replicate front.length .any ++ s.slots) _ = _
  rw [Slot.accept_replicate_append hne, List.drop_drop, Nat.add_comm, ← List.drop_drop,
    List.drop_left, matchesAt]

end Walks

theorem walk_withLeading (s : Signature) (front region : List UInt8) :
    (s.withLeading front.length).walk (front ++ region) 0 = s.walk region 0 :=
  walk_congr (isCandidate_withLeading s front region) (matchesAt_withLeading s front region)
    (s.jump_withLeading front.length)

section Front

variable {s : Signature} {front other : List UInt8}

theorem getElem?_front (hlen : front.length = other.length) (region : List UInt8) {i : Nat}
    (hi : front.length ≤ i) : (front ++ region)[i]? = (other ++ region)[i]? := by
  rw [List.getElem?_append_right hi, List.getElem?_append_right (hlen ▸ hi), hlen]

theorem isCandidate_front (hlen : front.length = other.length)
    (hfront : front.length ≤ s.anchorIndex) (region : List UInt8) (start : Nat) :
    s.isCandidate (front ++ region) start = s.isCandidate (other ++ region) start := by
  rw [Bool.eq_iff_iff, isCandidate_iff, isCandidate_iff, List.length_append, List.length_append,
    hlen, getElem?_front hlen region (Nat.le_add_left_of_le hfront)]

theorem matchesAt_front (hlen : front.length = other.length)
    (hfront : front.length ≤ s.anchorIndex) (region : List UInt8) (start : Nat) :
    s.matchesAt (front ++ region) start = s.matchesAt (other ++ region) start := by
  rw [Bool.eq_iff_iff, matchesAt_iff, matchesAt_iff, List.length_append, List.length_append, hlen]
  refine and_congr_right fun _ => forall_congr' fun i => forall_congr' fun b => ?_
  -- an exact slot lies at the anchor or behind it, so it stands over a byte of `region`
  refine imp_congr_right fun hslot => ?_
  have hi := anchorIndex_le_of_exact hslot
  rw [getElem?_front hlen region (Nat.le_add_left_of_le (Nat.le_trans hfront hi))]

theorem walk_front (hlen : front.length = other.length) (hfront : front.length ≤ s.anchorIndex)
    (region : List UInt8) : s.walk (front ++ region) 0 = s.walk (other ++ region) 0 :=
  walk_congr (isCandidate_front hlen hfront region) (matchesAt_front hlen hfront region) rfl

end Front

/-! ## 3. Everything that a search gives -/

/-- Two searches that nobody can tell apart by what they give. -/
structure SearchesAlike (s : Signature) (region : List UInt8) (t : Signature)
    (other : List UInt8) : Prop where
  positions : ∀ extent, s.positions extent region = t.positions extent other
  find? : s.find? region = t.find? other
  run : ∀ steps, Script.run s region steps = Script.run t other steps

theorem searchesAlike_of_walk {s t : Signature} {region other : List UInt8}
    (h : s.walk region 0 = t.walk other 0) (hoffset : s.offset = t.offset) :
    s.SearchesAlike region t other := by
  have hposition : s.position = t.position := by
    funext start
    rw [position, position, hoffset]
  have hpositions : ∀ extent, s.positions extent region = t.positions extent other := by
    intro extent
    rw [Signature.positions, Signature.positions, starts_congr h, hposition]
  refine ⟨hpositions, ?_, fun steps => ?_⟩
  · rw [find?_eq_head?, find?_eq_head?, hpositions]
  · rw [Script.run_eq_replay_starts, Script.run_eq_replay_starts, starts_congr h, hposition]

/-- Wildcards in front of a signature shift the region by as many bytes: the longer signature finds
behind any such bytes what the shorter one finds without them. So the bytes in front of the first
place where an anchor can stand are without influence on a search. -/
theorem positions_withLeading (s : Signature) (front region : List UInt8) :
    (s.withLeading front.length).SearchesAlike (front ++ region) s region ∧
      ∀ first other : List UInt8, first.length = other.length → first.length ≤ s.anchorIndex →
        s.SearchesAlike (first ++ region) s (other ++ region) ∧
          ∀ start, s.matchesAt (first ++ region) start = s.matchesAt (other ++ region) start := by
  refine ⟨searchesAlike_of_walk (s.walk_withLeading front region) rfl,
    fun first other hlen hfirst => ⟨?_, matchesAt_front hlen hfirst region⟩⟩
  exact searchesAlike_of_walk (walk_front hlen hfirst region) rfl

/-- The byte in front of `A` does not matter to `? A`, be it an `A` itself. -/
theorem positions_BA_AA :
    let s : Signature := ⟨[.any, .exact 0x41], 0, rfl⟩
    let first : List UInt8 := [0x42]
    let other : List UInt8 := [0x41]
    first.length = other.length ∧ first.length ≤ s.anchorIndex ∧
      s.positions (.every none) (first ++ [0x41]) =
        s.positions (.every none) (other ++ [0x41]) := by
  intro s first other
  have hanchor : first.length ≤ s.anchorIndex := by decide
  obtain ⟨hsame, _⟩ := (positions_withLeading s [] [0x41]).2 first other rfl hanchor
  exact ⟨rfl, hanchor, hsame.positions (.every none)⟩

end ByteScan.Signature

import ByteScan.Proofs.Search.Series
import Mathlib.Tactic.ByContra

/-!
# The matches that a search loses

What the search finds always matches, but the jump behind a candidate that fails can pass over a
match. This module says which matches are lost, and which signatures never lose one.

A candidate that fails at distance `d` in front of a match is excluded exactly when the match forces
every exact slot of the candidate (`Signature.Forced`). Where this does not hold, `lostRegion` is a
region with such a candidate at its beginning.

Results:
1. `starts_matches_and_losses`: the starts that are found ascend and match, and each lost match lies
   less than a jump behind a failed candidate, in a stretch where nothing is found.
2. `exhaustive_iff`: no match is lost in any region exactly for a signature with one exact byte, and
   for one that is two exact slots of the same byte from the anchor on.
-/

namespace ByteScan.Signature

/-! ## 1. Lost matches -/

/-- A match from `w` on that a walk from `w` does not meet lies in the jump behind a failed
candidate, and the walk meets nothing else there. -/
theorem exists_failed_of_not_mem_walk {s : Signature} {region : List UInt8} {w q : Nat}
    (hq : s.matchesAt region q = true) (hw : w ≤ q) (hlost : q ∉ s.walk region w) :
    ∃ c, w ≤ c ∧ c < q ∧ q < c + s.jump ∧ s.isCandidate region c = true ∧
      s.matchesAt region c = false ∧ ∀ p ∈ s.walk region w, ¬ (c ≤ p ∧ p < c + s.jump) := by
  have hcand := isCandidate_of_matchesAt hq
  induction w using walk_induction s region with
  | finish w hc =>
    rw [candidateFrom?_eq_none] at hc
    rw [hc q hw] at hcand
    exact absurd hcand Bool.false_ne_true
  | hit w c hc hm ih =>
    obtain ⟨_, hwc, _⟩ := candidateFrom?_eq_some.mp hc
    have hle : c ≤ q := le_of_candidateFrom? hc hw hcand
    rw [walk_of_match hc hm, List.mem_cons, not_or] at hlost
    obtain ⟨c', hw', hbefore, hwithin, hcand', hm', hnone⟩ := ih (by omega) hlost.2
    refine ⟨c', by omega, hbefore, hwithin, hcand', hm', fun p hp => ?_⟩
    rw [walk_of_match hc hm, List.mem_cons] at hp
    rcases hp with rfl | hp
    · omega
    · exact hnone p hp
  | miss w c hc hm ih =>
    obtain ⟨hcand', hwc, _⟩ := candidateFrom?_eq_some.mp hc
    have hle : c ≤ q := le_of_candidateFrom? hc hw hcand
    have hne : c ≠ q := by
      rintro rfl
      rw [hm] at hq
      exact Bool.false_ne_true hq
    rw [walk_of_miss hc hm] at hlost ⊢
    -- Either this failure jumps over `q`, or one behind it does.
    rcases Nat.lt_or_ge q (c + s.jump) with hlt | hge
    · refine ⟨c, hwc, by omega, hlt, hcand', hm, fun p hp => ?_⟩
      have hfar := le_of_mem_walk hp
      omega
    · obtain ⟨c', hw', hrest⟩ := ih hge hlost
      exact ⟨c', by omega, hrest⟩

/-- The starts of a region ascend and match. A match that is missing among them begins behind a
start where the anchor byte stands and the signature lies in the region but does not match, nearer
to it than there are slots from the anchor on, and no start is found from there on over that
distance. -/
theorem starts_matches_and_losses (s : Signature) (region : List UInt8) :
    (s.starts (.every none) region).Pairwise (· < ·) ∧
      (∀ p ∈ s.starts (.every none) region, s.matchesAt region p = true) ∧
      ∀ q, s.matchesAt region q = true → q ∉ s.starts (.every none) region →
        ∃ c, c < q ∧ q < c + (s.length - s.anchorIndex) ∧ c + s.length ≤ region.length ∧
          region[c + s.anchorIndex]? = some s.anchorByte ∧ s.matchesAt region c = false ∧
          ∀ p ∈ s.starts (.every none) region,
            ¬ (c ≤ p ∧ p < c + (s.length - s.anchorIndex)) := by
  rw [starts_every]
  refine ⟨walk_pairwise, fun p hp => matchesAt_of_mem_walk hp, fun q hq hlost => ?_⟩
  obtain ⟨c, _, hbefore, hwithin, hcand, hm, hnone⟩ :=
    exists_failed_of_not_mem_walk hq (Nat.zero_le q) hlost
  obtain ⟨hfits, hanchor⟩ := isCandidate_iff.mp hcand
  exact ⟨c, hbefore, hwithin, hfits, hanchor, hm, hnone⟩

/-- In `AAB` the match of `AB` at `1` is lost to the failed candidate at `0`. -/
theorem starts_AAB_loses_one :
    let s : Signature := ⟨[.exact 0x41, .exact 0x42], 0, rfl⟩
    let region : List UInt8 := [0x41, 0x41, 0x42]
    s.matchesAt region 1 = true ∧ 1 ∉ s.starts (.every none) region ∧
      ∃ c, c < 1 ∧ 1 < c + (s.length - s.anchorIndex) ∧ c + s.length ≤ region.length ∧
        region[c + s.anchorIndex]? = some s.anchorByte ∧ s.matchesAt region c = false ∧
        ∀ p ∈ s.starts (.every none) region, ¬ (c ≤ p ∧ p < c + (s.length - s.anchorIndex)) := by
  intro s region
  have hmatch : s.matchesAt region 1 = true := by decide
  have hlost : 1 ∉ s.starts (.every none) region := by decide
  exact ⟨hmatch, hlost, (starts_matches_and_losses s region).2.2 1 hmatch hlost⟩

/-! ## 2. Signatures that lose nothing -/

/-- The search finds every match in every region, in ascending order. -/
def Exhaustive (s : Signature) : Prop :=
  ∀ region, (s.starts (.every none) region).Pairwise (· < ·) ∧
    ∀ start, start ∈ s.starts (.every none) region ↔ s.matchesAt region start = true

/-- A match less than a jump behind a candidate puts the right byte on every exact slot of the
candidate behind its anchor. -/
def Forced (s : Signature) : Prop :=
  ∀ (d i : Nat) (b : UInt8), 0 < d → d < s.jump → s.anchorIndex < i →
    s.slots[i]? = some (.exact b) → d ≤ i ∧ s.slots[i - d]? = some (.exact b)

namespace LossLemmas

/-- A candidate fails at an exact slot behind its anchor. -/
theorem exists_mismatch {s : Signature} {region : List UInt8} {c : Nat}
    (hc : s.isCandidate region c = true) (hm : s.matchesAt region c = false) :
    ∃ (i : Nat) (b : UInt8), s.anchorIndex < i ∧ s.slots[i]? = some (.exact b) ∧
      region[c + i]? ≠ some b := by
  obtain ⟨hfits, hanchor⟩ := isCandidate_iff.mp hc
  rw [Bool.eq_false_iff, Ne, matchesAt_iff, not_and] at hm
  simp only [Classical.not_forall] at hm
  obtain ⟨i, b, hslot, hbyte⟩ := hm hfits
  refine ⟨i, b, ?_, hslot, hbyte⟩
  refine Nat.lt_of_le_of_ne (anchorIndex_le_of_exact hslot) ?_
  rintro rfl
  rw [slots_anchorIndex] at hslot
  obtain rfl : s.anchorByte = b := by simpa using hslot
  exact hbyte hanchor

theorem exhaustive_of_forced {s : Signature} (h : s.Forced) : s.Exhaustive := by
  intro region
  rw [starts_every]
  refine ⟨walk_pairwise, fun q => ⟨matchesAt_of_mem_walk, fun hq => ?_⟩⟩
  by_contra hlost
  obtain ⟨c, _, hbefore, hwithin, hcand, hm, _⟩ :=
    exists_failed_of_not_mem_walk hq (Nat.zero_le q) hlost
  obtain ⟨i, b, hi, hslot, hbyte⟩ := exists_mismatch hcand hm
  obtain ⟨hle, hearlier⟩ := h (q - c) i b (by omega) (by omega) hi hslot
  have hforced := (matchesAt_iff.mp hq).2 (i - (q - c)) b hearlier
  rw [show q + (i - (q - c)) = c + i by omega] at hforced
  exact hbyte hforced

/-- A byte of the region that loses the match at `d`: the byte that this match needs here, or else
the anchor byte at the anchor of the start `0`, or else a byte other than the one that a match at
`0` needs here. -/
def lostByte (s : Signature) (d i : Nat) : UInt8 :=
  ((if d ≤ i then s.slots[i - d]? else none).bind Slot.byte?).getD
    (if i = s.anchorIndex then s.anchorByte else s.bytes.getD i 0 + 1)

/-- A region that ends with a match at `d` and begins with a candidate that fails if it can. -/
def lostRegion (s : Signature) (d : Nat) : List UInt8 :=
  (List.range (d + s.length)).map (lostByte s d)

theorem length_lostRegion (s : Signature) (d : Nat) : (lostRegion s d).length = d + s.length := by
  rw [lostRegion, List.length_map, List.length_range]

theorem getElem?_lostRegion {s : Signature} {d i : Nat} (h : i < d + s.length) :
    (lostRegion s d)[i]? = some (lostByte s d i) := by
  rw [lostRegion, List.getElem?_map, List.getElem?_range h, Option.map_some]

theorem matchesAt_lostRegion (s : Signature) (d : Nat) :
    s.matchesAt (lostRegion s d) d = true := by
  refine matchesAt_iff.mpr ⟨Nat.le_of_eq (length_lostRegion s d).symm, fun i b hslot => ?_⟩
  have hi : i < s.length := (List.getElem?_eq_some_iff.mp hslot).1
  rw [getElem?_lostRegion (by omega), lostByte, if_pos (Nat.le_add_right d i),
    Nat.add_sub_cancel_left, hslot]
  rfl

/-- The match at `d` leaves the anchor of the start `0` alone, since only its wildcards reach
there. -/
theorem isCandidate_lostRegion (s : Signature) {d : Nat} (hd : 0 < d) :
    s.isCandidate (lostRegion s d) 0 = true := by
  have hanchor := s.anchorIndex_lt_length
  rw [isCandidate_iff, length_lostRegion, Nat.zero_add, Nat.zero_add]
  refine ⟨by omega, ?_⟩
  rw [getElem?_lostRegion (by omega), lostByte, if_pos rfl]
  split
  · next hle =>
    rw [slots_of_lt_anchorIndex (by omega)]
    rfl
  · rfl

theorem lostByte_ne {s : Signature} {d i : Nat} {b : UInt8} (hi : s.anchorIndex < i)
    (hslot : s.slots[i]? = some (.exact b))
    (hfree : ¬ (d ≤ i ∧ s.slots[i - d]? = some (.exact b))) : lostByte s d i ≠ b := by
  have hown : s.bytes.getD i 0 = b := by
    rw [bytes, List.getD_eq_getElem?_getD, List.getElem?_map, hslot]
    rfl
  have hother : (if i = s.anchorIndex then s.anchorByte else s.bytes.getD i 0 + 1) ≠ b := by
    rw [if_neg (by omega), hown]
    simp
  rw [lostByte]
  split
  · next hle =>
    cases hearlier : s.slots[i - d]? with
    | none => exact hother
    | some slot =>
      cases slot with
      | any => exact hother
      | exact c =>
        rintro rfl
        exact hfree ⟨hle, hearlier⟩
  · exact hother

theorem forced_of_exhaustive {s : Signature} (h : s.Exhaustive) : s.Forced := by
  intro d i b hd hjump hi hslot
  by_contra hfree
  have hcand := isCandidate_lostRegion s hd
  have hlen : i < s.length := (List.getElem?_eq_some_iff.mp hslot).1
  have hm : s.matchesAt (lostRegion s d) 0 = false := by
    rw [Bool.eq_false_iff]
    intro hmatch
    have hbyte := (matchesAt_iff.mp hmatch).2 i b hslot
    rw [Nat.zero_add, getElem?_lostRegion (by omega), Option.some.injEq] at hbyte
    exact lostByte_ne hi hslot hfree hbyte
  have hfound := ((h (lostRegion s d)).2 d).mpr (matchesAt_lostRegion s d)
  rw [starts_every, walk_jump hcand hm] at hfound
  have hfar := le_of_mem_walk hfound
  omega

theorem exactCount_eq_one_iff {s : Signature} :
    s.mask.exactCount = 1 ↔
      ∀ (i : Nat) (b : UInt8), s.anchorIndex < i → s.slots[i]? ≠ some (.exact b) := by
  rw [exactCount_mask, Nat.add_eq_right, List.countP_eq_zero]
  constructor
  · intro hnone i b hi hslot
    have hmem : Slot.exact b ∈ s.slots.drop (s.anchorIndex + 1) := by
      apply List.mem_of_getElem? (i := i - (s.anchorIndex + 1))
      rw [List.getElem?_drop, Nat.add_sub_cancel' hi, hslot]
    exact hnone _ hmem rfl
  · intro hnone slot hmem hexact
    obtain ⟨b, rfl⟩ := Slot.isExact_iff.mp hexact
    obtain ⟨i, hslot⟩ := List.mem_iff_getElem?.mp hmem
    rw [List.getElem?_drop] at hslot
    exact hnone _ b (by omega) hslot

/-- At the greatest distance below a jump, only the anchor of the match reaches an exact slot of the
candidate, and only the last one. -/
theorem last_of_forced {s : Signature} (h : s.Forced) {i : Nat} {b : UInt8}
    (hi : s.anchorIndex < i) (hslot : s.slots[i]? = some (.exact b)) :
    i + 1 = s.length ∧ b = s.anchorByte := by
  have hjump : s.jump = s.length - s.anchorIndex := rfl
  have hlen : i < s.length := (List.getElem?_eq_some_iff.mp hslot).1
  obtain ⟨hle, hearlier⟩ := h (s.jump - 1) i b (by omega) (by omega) hi hslot
  have hanchor := anchorIndex_le_of_exact hearlier
  obtain rfl : i = s.anchorIndex + (s.jump - 1) := by omega
  rw [Nat.add_sub_cancel, slots_anchorIndex] at hearlier
  obtain rfl : s.anchorByte = b := by simpa using hearlier
  exact ⟨by omega, rfl⟩

/-- At distance one, the slot in front of the last one is exact too, so it is the anchor. -/
theorem tail_of_forced {s : Signature} (h : s.Forced) {i : Nat} {b : UInt8}
    (hi : s.anchorIndex < i) (hslot : s.slots[i]? = some (.exact b)) :
    s.tail = [.exact b, .exact b] := by
  have hjump : s.jump = s.length - s.anchorIndex := rfl
  obtain ⟨hend, rfl⟩ := last_of_forced h hi hslot
  obtain ⟨_, hearlier⟩ := h 1 i s.anchorByte (by omega) (by omega) hi hslot
  have hnext : i = s.anchorIndex + 1 := by
    by_contra hne
    have hend' := (last_of_forced h (by omega) hearlier).1
    omega
  subst hnext
  obtain ⟨hlt, hget⟩ := List.getElem?_eq_some_iff.mp hslot
  rw [tail_eq_cons, List.drop_eq_getElem_cons hlt, hget,
    List.drop_of_length_le (Nat.le_of_eq hend.symm)]

theorem forced_of_tail {s : Signature} {b : UInt8} (h : s.tail = [.exact b, .exact b]) :
    s.Forced := by
  intro d i c hd hjump hi hslot
  have hlen : s.jump = 2 := by rw [jump, ← length_tail, h]; rfl
  have hdrop : ∀ j, s.slots[s.anchorIndex + j]? = [Slot.exact b, Slot.exact b][j]? := by
    intro j
    rw [← h, tail, List.getElem?_drop]
  obtain ⟨j, rfl⟩ := Nat.exists_eq_add_of_lt hi
  obtain rfl : d = 1 := by omega
  rw [Nat.add_assoc, hdrop] at hslot
  cases j with
  | zero =>
    refine ⟨by omega, ?_⟩
    have hfirst := hdrop 0
    simpa using hfirst.trans hslot
  | succ j => simp at hslot

end LossLemmas

open LossLemmas in
/-- No match is lost exactly for the signatures with one exact byte, and for those that are two
exact slots of the same byte from the anchor on. -/
theorem exhaustive_iff (s : Signature) :
    s.Exhaustive ↔ s.mask.exactCount = 1 ∨ ∃ b, s.tail = [.exact b, .exact b] := by
  constructor
  · intro h
    have hforced := forced_of_exhaustive h
    rw [exactCount_eq_one_iff]
    by_cases hexact : ∃ (i : Nat) (b : UInt8), s.anchorIndex < i ∧ s.slots[i]? = some (.exact b)
    · obtain ⟨i, b, hi, hslot⟩ := hexact
      exact .inr ⟨b, tail_of_forced hforced hi hslot⟩
    · exact .inl fun i b hi hslot => hexact ⟨i, b, hi, hslot⟩
  · rintro (hone | ⟨b, htail⟩)
    · rw [exactCount_eq_one_iff] at hone
      exact exhaustive_of_forced fun d i b _ _ hi hslot => absurd hslot (hone i b hi)
    · exact exhaustive_of_forced (forced_of_tail htail)

end ByteScan.Signature

import ByteScan.Proofs.Signature.Placement

/-!
# The search as a walk over starts

The search keeps an anchor position, and after a match it goes on in a shorter region. This module
says the same without either: one walk over the starts of the whole region.

* A *candidate* is a start where the whole signature lies in the region and the anchor byte stands.
* From `w`, the walk takes the least candidate at `w` or above.
* A candidate that matches is met, and the walk goes on one start later. Any other candidate sends
  it as many starts further as there are slots from the anchor on (`jump`).

Results:
1. `candidateFrom?_eq_some` and `candidateFrom?_eq_none`: the least candidate.
2. `walk_of_none`, `walk_of_match`, `walk_of_miss`: the three steps of a walk. `walk_cons`,
   `walk_jump` and `walk_succ` are the same for a step from a given start.
3. `walk_pairwise`, `matchesAt_of_mem_walk`, `length_walk_le`: what a walk meets is in order,
   matches, and is bounded in number.
4. `walk_eq_map`: two walks that see the same candidates at a fixed distance meet the same starts at
   that distance.
-/

namespace ByteScan.Signature

/-! ## Definitions -/

/-- Whether the whole signature lies in the region at this start. -/
def fits (s : Signature) (region : List UInt8) (start : Nat) : Bool :=
  decide (start + s.length ≤ region.length)

/-- Whether the signature lies in the region at this start and the anchor byte stands in its
place. -/
def isCandidate (s : Signature) (region : List UInt8) (start : Nat) : Bool :=
  s.fits region start && region[start + s.anchorIndex]? == some s.anchorByte

/-- The least candidate at `w` or above. -/
def candidateFrom? (s : Signature) (region : List UInt8) (w : Nat) : Option Nat :=
  (List.range' w (region.length - w)).find? (s.isCandidate region)

/-- How far a candidate that does not match sends the search. -/
def jump (s : Signature) : Nat :=
  s.length - s.anchorIndex

/-! ## 1. Candidates -/

theorem jump_pos (s : Signature) : 0 < s.jump := by
  have hlt := s.anchorIndex_lt_length
  unfold jump
  omega

theorem jump_le_length (s : Signature) : s.jump ≤ s.length :=
  Nat.sub_le _ _

section Candidates

variable {s : Signature} {region : List UInt8} {start w c : Nat}

theorem fits_iff : s.fits region start = true ↔ start + s.length ≤ region.length := by
  rw [fits, decide_eq_true_eq]

theorem isCandidate_iff :
    s.isCandidate region start = true ↔
      start + s.length ≤ region.length ∧ region[start + s.anchorIndex]? = some s.anchorByte := by
  rw [isCandidate, Bool.and_eq_true, fits_iff, beq_iff_eq]

/-- A start where the signature does not lie in the region is no candidate. -/
theorem isCandidate_of_length_lt (h : region.length < start + s.length) :
    s.isCandidate region start = false := by
  rw [Bool.eq_false_iff]
  intro hc
  have hfits := (isCandidate_iff.mp hc).1
  omega

/-- Every match is a candidate. -/
theorem isCandidate_of_matchesAt (h : s.matchesAt region start = true) :
    s.isCandidate region start = true := by
  obtain ⟨hfits, hall⟩ := matchesAt_iff.mp h
  exact isCandidate_iff.mpr ⟨hfits, hall s.anchorIndex s.anchorByte s.slots_anchorIndex⟩

theorem candidateFrom?_eq_some :
    s.candidateFrom? region w = some c ↔
      s.isCandidate region c = true ∧ w ≤ c ∧
        ∀ start, w ≤ start → start < c → s.isCandidate region start = false := by
  rw [candidateFrom?, List.find?_range'_eq_some]
  simp only [List.mem_range'_1, Bool.not_eq_eq_eq_not, Bool.not_true]
  constructor
  · rintro ⟨hc, ⟨hw, _⟩, hleast⟩
    exact ⟨hc, hw, hleast⟩
  · rintro ⟨hc, hw, hleast⟩
    have hfits := (isCandidate_iff.mp hc).1
    have hpos := s.length_pos
    exact ⟨hc, ⟨hw, by omega⟩, hleast⟩

theorem candidateFrom?_eq_none :
    s.candidateFrom? region w = none ↔ ∀ start, w ≤ start → s.isCandidate region start = false := by
  rw [candidateFrom?, List.find?_range'_eq_none]
  simp only [Bool.not_eq_eq_eq_not, Bool.not_true]
  constructor
  · intro hall start hw
    rcases Nat.lt_or_ge start region.length with hlt | hge
    · exact hall start hw (by omega)
    · have hpos := s.length_pos
      exact isCandidate_of_length_lt (by omega)
  · exact fun hall start hw _ => hall start hw

theorem le_of_candidateFrom? (h : s.candidateFrom? region w = some c) (hw : w ≤ start)
    (hcand : s.isCandidate region start = true) : c ≤ start := by
  obtain ⟨_, _, hleast⟩ := candidateFrom?_eq_some.mp h
  refine Nat.le_of_not_lt fun hlt => ?_
  rw [hleast start hw hlt] at hcand
  exact Bool.false_ne_true hcand

/-- The least candidate, when it stands at `w` itself. -/
theorem candidateFrom?_self (h : s.isCandidate region w = true) :
    s.candidateFrom? region w = some w :=
  candidateFrom?_eq_some.mpr ⟨h, Nat.le_refl w, fun _ hw hlt => absurd hw (by omega)⟩

theorem candidateFrom?_succ (h : s.isCandidate region w = false) :
    s.candidateFrom? region w = s.candidateFrom? region (w + 1) := by
  have hother : ∀ start, w ≤ start → start ≠ w → w + 1 ≤ start := by omega
  cases hnext : s.candidateFrom? region (w + 1) with
  | none =>
    rw [candidateFrom?_eq_none] at hnext ⊢
    intro start hw
    by_cases heq : start = w
    · exact heq ▸ h
    · exact hnext start (hother start hw heq)
  | some c =>
    rw [candidateFrom?_eq_some] at hnext ⊢
    obtain ⟨hc, hw, hleast⟩ := hnext
    refine ⟨hc, by omega, fun start hstart hlt => ?_⟩
    by_cases heq : start = w
    · exact heq ▸ h
    · exact hleast start (hother start hstart heq) hlt

end Candidates

/-! ## 2. The walk -/

/-- The starts that are met from `w` on. The least candidate at `w` or above is met if it matches,
and the walk goes on one start later. If it does not match, the walk goes on a jump later. -/
def walk (s : Signature) (region : List UInt8) (w : Nat) : List Nat :=
  match _h : s.candidateFrom? region w with
  | none => []
  | some c =>
    if s.matchesAt region c then c :: s.walk region (c + 1) else s.walk region (c + s.jump)
termination_by region.length - w
decreasing_by
  all_goals
    obtain ⟨hc, hw, _⟩ := candidateFrom?_eq_some.mp _h
    have hfits := (isCandidate_iff.mp hc).1
    have hpos := s.length_pos
    have hjump := s.jump_pos
    omega

section Steps

variable {s : Signature} {region : List UInt8} {w c : Nat}

theorem walk_of_none (h : s.candidateFrom? region w = none) : s.walk region w = [] := by
  rw [walk]
  split
  · rfl
  · next c hc => simp [h] at hc

theorem walk_of_match (h : s.candidateFrom? region w = some c)
    (hm : s.matchesAt region c = true) : s.walk region w = c :: s.walk region (c + 1) := by
  rw [walk]
  split
  · next hnone => simp [h] at hnone
  · next c' hc' =>
    obtain rfl : c = c' := by simpa [h] using hc'
    rw [if_pos hm]

theorem walk_of_miss (h : s.candidateFrom? region w = some c)
    (hm : s.matchesAt region c = false) : s.walk region w = s.walk region (c + s.jump) := by
  rw [walk]
  split
  · next hnone => simp [h] at hnone
  · next c' hc' =>
    obtain rfl : c = c' := by simpa [h] using hc'
    rw [if_neg (by simp [hm])]

/-- Nothing is met where the signature no longer lies in the region. -/
theorem walk_of_length_lt (h : region.length < w + s.length) : s.walk region w = [] := by
  apply walk_of_none
  rw [candidateFrom?_eq_none]
  exact fun start hw => isCandidate_of_length_lt (by omega)

theorem walk_cons (h : s.matchesAt region w = true) :
    s.walk region w = w :: s.walk region (w + 1) :=
  walk_of_match (candidateFrom?_self (isCandidate_of_matchesAt h)) h

theorem walk_jump (h : s.isCandidate region w = true) (hm : s.matchesAt region w = false) :
    s.walk region w = s.walk region (w + s.jump) :=
  walk_of_miss (candidateFrom?_self h) hm

theorem walk_succ (h : s.isCandidate region w = false) :
    s.walk region w = s.walk region (w + 1) := by
  have heq := candidateFrom?_succ h
  cases hc : s.candidateFrom? region (w + 1) with
  | none => rw [walk_of_none hc, walk_of_none (heq.trans hc)]
  | some c =>
    cases hm : s.matchesAt region c with
    | true => rw [walk_of_match hc hm, walk_of_match (heq.trans hc) hm]
    | false => rw [walk_of_miss hc hm, walk_of_miss (heq.trans hc) hm]

end Steps

/-- Induction along a walk: it is at its end, it meets the least candidate, or it jumps from it. -/
theorem walk_induction (s : Signature) (region : List UInt8) {motive : Nat → Prop}
    (finish : ∀ w, s.candidateFrom? region w = none → motive w)
    (hit : ∀ w c, s.candidateFrom? region w = some c → s.matchesAt region c = true →
      motive (c + 1) → motive w)
    (miss : ∀ w c, s.candidateFrom? region w = some c → s.matchesAt region c = false →
      motive (c + s.jump) → motive w)
    (w : Nat) : motive w := by
  induction w using walk.induct s region with
  | case1 w h => exact finish w h
  | case2 w c h hm ih => exact hit w c h hm ih
  | case3 w c h hm ih => exact miss w c h (by simpa using hm) ih

/-! ## 3. What a walk meets -/

section Met

variable {s : Signature} {region : List UInt8} {w p : Nat}

theorem le_of_mem_walk (h : p ∈ s.walk region w) : w ≤ p := by
  induction w using walk_induction s region with
  | finish w hc =>
    rw [walk_of_none hc] at h
    exact absurd h List.not_mem_nil
  | hit w c hc hm ih =>
    obtain ⟨_, hw, _⟩ := candidateFrom?_eq_some.mp hc
    rw [walk_of_match hc hm, List.mem_cons] at h
    rcases h with rfl | h
    · exact hw
    · have hle := ih h
      omega
  | miss w c hc hm ih =>
    obtain ⟨_, hw, _⟩ := candidateFrom?_eq_some.mp hc
    rw [walk_of_miss hc hm] at h
    have hle := ih h
    omega

theorem matchesAt_of_mem_walk (h : p ∈ s.walk region w) : s.matchesAt region p = true := by
  induction w using walk_induction s region with
  | finish w hc =>
    rw [walk_of_none hc] at h
    exact absurd h List.not_mem_nil
  | hit w c hc hm ih =>
    rw [walk_of_match hc hm, List.mem_cons] at h
    rcases h with rfl | h
    · exact hm
    · exact ih h
  | miss w c hc hm ih =>
    rw [walk_of_miss hc hm] at h
    exact ih h

/-- Nothing is met in front of the least candidate. -/
theorem le_of_mem_walk_of_candidateFrom? {c : Nat} (hc : s.candidateFrom? region w = some c)
    (h : p ∈ s.walk region w) : c ≤ p :=
  le_of_candidateFrom? hc (le_of_mem_walk h) (isCandidate_of_matchesAt (matchesAt_of_mem_walk h))

theorem walk_pairwise : (s.walk region w).Pairwise (· < ·) := by
  induction w using walk_induction s region with
  | finish w hc =>
    rw [walk_of_none hc]
    exact List.Pairwise.nil
  | hit w c hc hm ih =>
    rw [walk_of_match hc hm, List.pairwise_cons]
    exact ⟨fun p hp => le_of_mem_walk hp, ih⟩
  | miss w c hc hm ih =>
    rw [walk_of_miss hc hm]
    exact ih

/-- There are at most as many matches as starts from `w` on. -/
theorem length_walk_le (s : Signature) (region : List UInt8) (w : Nat) :
    (s.walk region w).length ≤ region.length + 1 - s.length - w := by
  induction w using walk_induction s region with
  | finish w hc =>
    rw [walk_of_none hc]
    exact Nat.zero_le _
  | hit w c hc hm ih =>
    obtain ⟨hcand, hw, _⟩ := candidateFrom?_eq_some.mp hc
    have hfits := (isCandidate_iff.mp hcand).1
    rw [walk_of_match hc hm, List.length_cons]
    omega
  | miss w c hc hm ih =>
    obtain ⟨_, hw, _⟩ := candidateFrom?_eq_some.mp hc
    rw [walk_of_miss hc hm]
    omega

end Met

/-! ## 4. Walks at a distance -/

section Distance

variable {s t : Signature} {region other : List UInt8} {d : Nat}

theorem candidateFrom?_eq_map
    (hc : ∀ start, s.isCandidate region (d + start) = t.isCandidate other start) (w : Nat) :
    s.candidateFrom? region (d + w) = (t.candidateFrom? other w).map (d + ·) := by
  have hback : ∀ start, d + w ≤ start →
      s.isCandidate region start = t.isCandidate other (start - d) := by
    intro start hstart
    rw [← hc, Nat.add_sub_cancel' (by omega)]
  cases hleast : t.candidateFrom? other w with
  | none =>
    rw [candidateFrom?_eq_none] at hleast
    rw [Option.map_none, candidateFrom?_eq_none]
    intro start hstart
    rw [hback start hstart]
    exact hleast (start - d) (by omega)
  | some c =>
    obtain ⟨hcand, hw, hbelow⟩ := candidateFrom?_eq_some.mp hleast
    rw [Option.map_some, candidateFrom?_eq_some]
    refine ⟨by rw [hc, hcand], by omega, fun start hstart hlt => ?_⟩
    rw [hback start hstart]
    exact hbelow (start - d) (by omega) (by omega)

theorem walk_eq_map
    (hc : ∀ start, s.isCandidate region (d + start) = t.isCandidate other start)
    (hm : ∀ start, s.matchesAt region (d + start) = t.matchesAt other start)
    (hj : s.jump = t.jump) (w : Nat) :
    s.walk region (d + w) = (t.walk other w).map (d + ·) := by
  induction w using walk_induction t other with
  | finish w hleast =>
    have hleast' := candidateFrom?_eq_map hc w
    rw [hleast, Option.map_none] at hleast'
    rw [walk_of_none hleast, walk_of_none hleast', List.map_nil]
  | hit w c hleast hmatch ih =>
    have hleast' := candidateFrom?_eq_map hc w
    rw [hleast, Option.map_some] at hleast'
    rw [walk_of_match hleast hmatch, walk_of_match hleast' ((hm c).trans hmatch), List.map_cons,
      ← ih, Nat.add_assoc]
  | miss w c hleast hmatch ih =>
    have hleast' := candidateFrom?_eq_map hc w
    rw [hleast, Option.map_some] at hleast'
    rw [walk_of_miss hleast hmatch, walk_of_miss hleast' ((hm c).trans hmatch), ← ih, hj,
      Nat.add_assoc]

theorem walk_congr (hc : ∀ start, s.isCandidate region start = t.isCandidate other start)
    (hm : ∀ start, s.matchesAt region start = t.matchesAt other start) (hj : s.jump = t.jump) :
    s.walk region 0 = t.walk other 0 := by
  have hwalk : s.walk region (0 + 0) = (t.walk other 0).map (0 + ·) := by
    refine walk_eq_map (fun start => ?_) (fun start => ?_) hj 0
    · rw [Nat.zero_add, hc]
    · rw [Nat.zero_add, hm]
  simpa using hwalk

/-- The walk over what is left of a region behind its first `d` bytes. -/
theorem walk_drop (s : Signature) (region : List UInt8) (d w : Nat) :
    s.walk region (d + w) = (s.walk (region.drop d) w).map (d + ·) := by
  have hpos := s.length_pos
  apply walk_eq_map
  · intro start
    rw [Bool.eq_iff_iff, isCandidate_iff, isCandidate_iff, List.length_drop, List.getElem?_drop,
      Nat.add_assoc d start s.anchorIndex]
    exact and_congr_left fun _ => by omega
  · intro start
    rw [matchesAt, matchesAt, List.drop_drop]
  · rfl

end Distance

end ByteScan.Signature

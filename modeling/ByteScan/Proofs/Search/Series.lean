import ByteScan.Proofs.Search.Walk
import ByteScan.Search.Cursor

/-!
# A cursor gives the starts of a walk

The search counts anchor positions, restarts behind each match on the rest of the region, and takes
an anchor too near the end for a candidate that fails. `Signature.walk` knows none of this. This
module shows that both meet the same starts.

A cursor is described by the list of starts that it has still to give (`Cursor.remaining`). A step
gives the head of that list and leaves its tail, whatever the steps before it were.

Results:
1. `Signature.firstStart?_eq_head?`: the first match is the first start of the walk.
2. `Cursor.next_fst` and `Cursor.remaining_next`: one step.
3. `Cursor.pull_fst` and `Cursor.remaining_pull`: any number of steps, with the cases `take` and
   `drain`.
4. `Signature.starts_every`: all starts of a region. `Signature.positions_eq_walk` says the same of
   the positions that are reported.
-/

namespace ByteScan

/-! ## 1. The first match -/

namespace Signature

section First

variable {s : Signature} {region : List UInt8} {w : Nat}

/-- An anchor where the signature does not match sends the walk on by a jump, also when the
signature reaches over the end of the region there. -/
theorem walk_jump_of_anchor (ha : region[w + s.anchorIndex]? = some s.anchorByte)
    (hm : s.matchesAt region w = false) : s.walk region w = s.walk region (w + s.jump) := by
  rcases Nat.lt_or_ge region.length (w + s.length) with hlt | hge
  · rw [walk_of_length_lt hlt, walk_of_length_lt (by omega)]
  · exact walk_jump (isCandidate_iff.mpr ⟨hge, ha⟩) hm

theorem walk_succ_of_not_anchor (ha : region[w + s.anchorIndex]? ≠ some s.anchorByte) :
    s.walk region w = s.walk region (w + 1) := by
  apply walk_succ
  rw [Bool.eq_false_iff]
  exact fun hc => ha (isCandidate_iff.mp hc).2

/-- Where no anchor byte stands from the anchor position on, a walk meets nothing. -/
theorem walk_eq_nil_of_not_mem (h : s.anchorByte ∉ region.drop (w + s.anchorIndex)) :
    s.walk region w = [] := by
  apply walk_of_none
  rw [candidateFrom?_eq_none]
  intro start hw
  rw [Bool.eq_false_iff]
  intro hcand
  obtain ⟨_, hanchor⟩ := isCandidate_iff.mp hcand
  apply h
  apply List.mem_of_getElem? (i := start - w)
  rw [List.getElem?_drop, ← hanchor]
  congr 1
  omega

/-- A walk passes over bytes that are not the anchor byte. -/
theorem walk_add_of_not_anchor {d : Nat}
    (h : ∀ i < d, region[w + s.anchorIndex + i]? ≠ some s.anchorByte) :
    s.walk region w = s.walk region (w + d) := by
  induction d with
  | zero => rfl
  | succ d ih =>
    rw [ih fun i hi => h i (Nat.lt_succ_of_lt hi)]
    apply walk_succ_of_not_anchor
    rw [Nat.add_right_comm]
    exact h d (Nat.lt_succ_self d)

/-- The rest of a walk behind the start that it meets first. -/
theorem walk_eq_cons_of_head? {c : Nat} (h : (s.walk region w).head? = some c) :
    s.walk region w = c :: s.walk region (c + 1) := by
  induction w using walk_induction s region with
  | finish w hc => simp [walk_of_none hc] at h
  | hit w c' hc hm ih =>
    rw [walk_of_match hc hm, List.head?_cons, Option.some.injEq] at h
    subst h
    exact walk_of_match hc hm
  | miss w c' hc hm ih =>
    rw [walk_of_miss hc hm] at h ⊢
    exact ih h

/-- The search of `rest` against the walk of the whole region. `w` is the start to which the next
anchor position to be looked at belongs. -/
theorem seek_eq_head? {rest : List UInt8} {skip index : Nat} (hrest : rest = region.drop index)
    (hw : w + s.anchorIndex = index + skip) :
    seek s.anchorByte s.tail skip index rest =
      (s.walk region w).head?.map (· + s.anchorIndex) := by
  induction rest generalizing skip index w with
  | nil =>
    have hlen : region.length ≤ index := List.drop_eq_nil_iff.mp hrest.symm
    have hanchor := s.anchorIndex_lt_length
    rw [walk_of_length_lt (by omega)]
    rfl
  | cons byte rest ih =>
    have hbyte : region[index]? = some byte := by
      rw [← List.head?_drop, ← hrest]
      rfl
    have htail : rest = region.drop (index + 1) := by
      rw [← List.tail_drop, ← hrest]
      rfl
    cases skip with
    | succ skip => exact ih htail (by omega)
    | zero =>
      obtain rfl : index = w + s.anchorIndex := by omega
      rw [seek, hrest, accept_tail]
      split
      · next heq =>
        obtain rfl : byte = s.anchorByte := by simpa using heq
        cases hm : s.matchesAt region w with
        | true =>
          rw [walk_cons hm]
          rfl
        | false =>
          -- the search passes the other slots byte by byte, the walk jumps over them at once
          have hjump : s.tail.length = s.jump := s.length_tail
          have hpos := s.jump_pos
          rw [walk_jump_of_anchor hbyte hm]
          exact ih htail (by omega)
      · next hne =>
        rw [walk_succ_of_not_anchor (by simpa [hbyte] using hne)]
        exact ih htail (by omega)

theorem firstStart?_eq_head? (s : Signature) (region : List UInt8) :
    s.firstStart? region = (s.walk region 0).head? := by
  have hseek : seek s.anchorByte s.tail s.anchorIndex 0 region =
      (s.walk region 0).head?.map (· + s.anchorIndex) := seek_eq_head? rfl rfl
  rw [firstStart?, hseek, Option.map_map]
  cases (s.walk region 0).head? with
  | none => rfl
  | some c => simp

end First

end Signature

/-! ## 2. One step of a cursor -/

namespace Cursor

variable (s : Signature) (c : Cursor)

/-- The starts that a cursor has still to give. -/
def remaining : List Nat :=
  if c.finished then [] else (s.walk c.rest 0).map (c.passed + ·)

theorem remaining_start (region : List UInt8) :
    ({ rest := region } : Cursor).remaining s = s.walk region 0 := by
  simp [remaining]

theorem length_remaining_le : (c.remaining s).length ≤ c.rest.length := by
  have hwalk := s.length_walk_le c.rest 0
  have hpos := s.length_pos
  rw [remaining]
  split
  · exact Nat.zero_le _
  · rw [List.length_map]
    omega

theorem next_fst : (c.next s).1 = (c.remaining s).head? := by
  rw [next, remaining]
  split
  · rfl
  · rw [List.head?_map, ← Signature.firstStart?_eq_head?]
    cases s.firstStart? c.rest with
    | none => rfl
    | some start => rfl

theorem remaining_next : (c.next s).2.remaining s = (c.remaining s).tail := by
  by_cases hf : c.finished = true
  · simp [next, remaining, hf]
  · cases hfirst : s.firstStart? c.rest with
    | none =>
      have hwalk : s.walk c.rest 0 = [] := by
        rw [← List.head?_eq_none_iff, ← Signature.firstStart?_eq_head?, hfirst]
      simp [next, remaining, hf, hfirst, hwalk]
    | some start =>
      have hwalk : s.walk c.rest 0 = start :: s.walk c.rest (start + 1) := by
        apply Signature.walk_eq_cons_of_head?
        rw [← Signature.firstStart?_eq_head?, hfirst]
      -- the next step starts anew behind the match
      have hdrop := s.walk_drop c.rest (start + 1) 0
      rw [Nat.add_zero] at hdrop
      simp [next, remaining, hf, hfirst, hwalk, hdrop, Nat.add_assoc]

end Cursor

/-! ## 3. Several steps -/

namespace Cursor

/-- The starts up to and including the first one that is enough. -/
def upTo (enough : Nat → Bool) : List Nat → List Nat
  | [] => []
  | start :: starts => if enough start then [start] else start :: upTo enough starts

theorem upTo_false (starts : List Nat) : upTo (fun _ => false) starts = starts := by
  induction starts with
  | nil => rfl
  | cons start starts ih =>
    rw [upTo, if_neg Bool.false_ne_true, ih]

section Pull

variable (s : Signature) (enough : Nat → Bool)

/-- The result of `pull` and what it leaves, in one induction over the number of steps. -/
theorem pull_spec (steps : Nat) (met : List Nat) (c : Cursor) :
    (c.pull s enough steps met).1 = met.reverse ++ upTo enough ((c.remaining s).take steps) ∧
      (c.pull s enough steps met).2.remaining s =
        (c.remaining s).drop (upTo enough ((c.remaining s).take steps)).length := by
  induction steps generalizing met c with
  | zero => simp [pull, upTo]
  | succ steps ih =>
    have hfst := c.next_fst s
    have hsnd := c.remaining_next s
    rcases hnext : c.next s with ⟨_ | start, moved⟩
    · simp only [pull, hnext] at hfst hsnd ⊢
      have hnil : c.remaining s = [] := List.head?_eq_none_iff.mp hfst.symm
      rw [hnil] at hsnd ⊢
      simpa [upTo] using hsnd
    · simp only [pull, hnext] at hfst hsnd ⊢
      obtain ⟨starts, hcons⟩ := List.head?_eq_some_iff.mp hfst.symm
      rw [hcons, List.tail_cons] at hsnd
      rw [hcons, List.take_succ_cons, upTo]
      split
      · simp [hsnd]
      · obtain ⟨hmet, hleft⟩ := ih (start :: met) moved
        rw [hsnd] at hmet hleft
        rw [hmet, hleft]
        simp

theorem pull_fst (steps : Nat) (c : Cursor) :
    (c.pull s enough steps []).1 = upTo enough ((c.remaining s).take steps) :=
  (pull_spec s enough steps [] c).1

theorem remaining_pull (steps : Nat) (c : Cursor) :
    (c.pull s enough steps []).2.remaining s =
      (c.remaining s).drop (upTo enough ((c.remaining s).take steps)).length :=
  (pull_spec s enough steps [] c).2

end Pull

section Take

variable (s : Signature) (c : Cursor)

theorem take_fst (n : Nat) : (c.take s n).1 = (c.remaining s).take n := by
  rw [take, pull_fst, upTo_false]

theorem remaining_take (n : Nat) : (c.take s n).2.remaining s = (c.remaining s).drop n := by
  rw [take, remaining_pull, upTo_false, List.length_take]
  rcases Nat.le_total n (c.remaining s).length with hle | hge
  · rw [Nat.min_eq_left hle]
  · rw [Nat.min_eq_right hge, List.drop_length, List.drop_of_length_le hge]

theorem drain_fst : (c.drain s).1 = c.remaining s := by
  have hlen := c.length_remaining_le s
  rw [drain, take_fst, stepBound]
  exact List.take_of_length_le (by omega)

/-- A drained cursor is at its end: the bound on its steps cuts nothing off. -/
theorem remaining_drain : (c.drain s).2.remaining s = [] := by
  have hlen := c.length_remaining_le s
  rw [drain, remaining_take, stepBound]
  exact List.drop_of_length_le (by omega)

end Take

end Cursor

/-! ## 4. All matches of a region -/

namespace Signature

theorem starts_every (s : Signature) (region : List UInt8) :
    s.starts (.every none) region = s.walk region 0 := by
  rw [starts, Cursor.drain_fst, Cursor.remaining_start]

theorem starts_congr {s t : Signature} {region other : List UInt8}
    (h : s.walk region 0 = t.walk other 0) (extent : Extent) :
    s.starts extent region = t.starts extent other := by
  cases extent with
  | first => rw [starts, starts, firstStart?_eq_head?, firstStart?_eq_head?, h]
  | every limit =>
    cases limit with
    | none => rw [starts_every, starts_every, h]
    | some limit =>
      rw [starts, starts, Cursor.take_fst, Cursor.take_fst, Cursor.remaining_start,
        Cursor.remaining_start, h]

/-- The wanted matches come first among all matches. -/
theorem starts_prefix (s : Signature) (extent : Extent) (region : List UInt8) :
    s.starts extent region <+: s.walk region 0 := by
  cases extent with
  | first =>
    rw [starts, firstStart?_eq_head?, ← List.take_one]
    exact List.take_prefix 1 _
  | every limit =>
    cases limit with
    | none => exact ⟨[], by rw [List.append_nil, starts_every]⟩
    | some limit =>
      rw [starts, Cursor.take_fst, Cursor.remaining_start]
      exact List.take_prefix limit.toNat _

theorem matchesAt_of_mem_starts {s : Signature} {extent : Extent} {region : List UInt8}
    {start : Nat} (h : start ∈ s.starts extent region) : s.matchesAt region start = true :=
  matchesAt_of_mem_walk ((s.starts_prefix extent region).subset h)

theorem find?_eq_head? (s : Signature) (region : List UInt8) :
    s.find? region = (s.positions (.every none) region).head? := by
  rw [find?, firstStart?_eq_head?, positions, starts_every, List.head?_map]

/-- A start is reported exactly, or as the greatest position. The least position needs no clamp,
since a start is not negative. -/
theorem toInt_position (s : Signature) (start : Nat) :
    (s.position start).toInt = min (start + s.offset.toInt) Int64.maxValue.toInt := by
  have hmin := s.offset.minValue_le_toInt
  rw [position]
  by_cases hle : start + s.offset.toInt ≤ Int64.maxValue.toInt
  · rw [Int64.toInt_ofIntClamp (by omega) hle]
    omega
  · rw [Int64.ofIntClamp, dif_pos (by omega), dif_neg hle]
    omega

/-- A cursor that is run to its end gives the starts of the walk over the whole region, each start
is reported with the offset and at most as the greatest position, and the first position is what a
search for one match returns. -/
theorem positions_eq_walk (s : Signature) (region : List UInt8) :
    s.starts (.every none) region = s.walk region 0 ∧
      ((Cursor.drain s { rest := region }).2.next s).1 = none ∧
      (s.positions (.every none) region).map Int64.toInt =
        (s.walk region 0).map
          (fun start : Nat => min (start + s.offset.toInt) Int64.maxValue.toInt) ∧
      s.find? region = (s.positions (.every none) region).head? := by
  refine ⟨s.starts_every region, ?_, ?_, s.find?_eq_head? region⟩
  · rw [Cursor.next_fst, Cursor.remaining_drain, List.head?_nil]
  · rw [positions, starts_every, List.map_map]
    exact List.map_congr_left fun start _ => s.toInt_position start

end Signature

end ByteScan

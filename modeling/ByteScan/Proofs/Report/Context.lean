import ByteScan.Proofs.Search.Series
import ByteScan.Proofs.Text.Words
import ByteScan.Report.Basic

/-!
# What is shown for a match

A finding shows bytes for each match, but it is given the positions and not the starts. It takes the
offset off a position again, and that gives the start back as long as the start was reported
exactly. All later starts are reported as the greatest position, and for these the bytes are shown
that begin at the last start which is still told apart.

* `Signature.covered`: the bytes that a match covers.
* `Signature.lastExactStart`: the last start that is reported exactly.

Results:
1. `Signature.toInt_start_of_position`: the offset taken off a position.
2. `Signature.covered_of_matchesAt`: the bytes that a match covers match by themselves.
3. `Finding.context_position`, `Finding.contexts_ofPositions`: what is shown for each match, and when
   these are the bytes that the match covers. `Finding.contexts_at_greatest_position`: they need not
   be.
-/

namespace ByteScan

namespace Signature

/-- The bytes that a match covers which begins at `start`. -/
def covered (s : Signature) (region : List UInt8) (start : Nat) : List UInt8 :=
  (region.drop start).take s.length

/-- The last start that is reported exactly. No start of a region is beyond the greatest position, so
this is one only if the offset is not negative. -/
def lastExactStart (s : Signature) : Nat :=
  (min (Int64.maxValue.toInt - s.offset.toInt) Int64.maxValue.toInt).toNat

/-! ## 1. The start of a position -/

section Start

variable (s : Signature) (start : Nat)

theorem toInt_lastExactStart : (s.lastExactStart : Int) =
    min (Int64.maxValue.toInt - s.offset.toInt) Int64.maxValue.toInt := by
  have hle := s.offset.toInt_le
  have hmax : (0 : Int) ≤ Int64.maxValue.toInt := by decide
  exact Int.toNat_of_nonneg (by omega)

theorem le_lastExactStart_iff : start ≤ s.lastExactStart ↔
    start + s.offset.toInt ≤ Int64.maxValue.toInt ∧ (start : Int) ≤ Int64.maxValue.toInt := by
  have hlast := s.toInt_lastExactStart
  omega

/-- Taking the offset off again undoes the addition of the offset up to the last start that is
reported exactly, and gives this one for all later starts. -/
theorem toInt_start_of_position :
    (Int64.ofIntClamp ((s.position start).toInt - s.offset.toInt)).toInt =
      (min start s.lastExactStart : Nat) := by
  have hmin : Int64.minValue.toInt ≤ 0 := by decide
  have hle := s.offset.toInt_le
  have hlast := s.toInt_lastExactStart
  rw [toInt_position]
  by_cases hbound : min (start + s.offset.toInt) Int64.maxValue.toInt - s.offset.toInt ≤
      Int64.maxValue.toInt
  · rw [Int64.toInt_ofIntClamp (by omega) hbound]
    omega
  · rw [Int64.ofIntClamp, dif_pos (by omega), dif_neg hbound]
    omega

end Start

/-! ## 2. The bytes of a match -/

/-- A match covers as many bytes as the signature has slots, and the signature matches these bytes
alone. -/
theorem covered_of_matchesAt {s : Signature} {region : List UInt8} {start : Nat}
    (h : s.matchesAt region start = true) :
    (s.covered region start).length = s.length ∧ s.matchesAt (s.covered region start) 0 = true := by
  obtain ⟨hfits, hall⟩ := matchesAt_iff.mp h
  have hlen : (s.covered region start).length = s.length := by
    rw [covered, List.length_take, List.length_drop]
    omega
  refine ⟨hlen, matchesAt_iff.mpr ⟨by omega, fun i b hslot => ?_⟩⟩
  have hi : i < s.length := (List.getElem?_eq_some_iff.mp hslot).1
  rw [Nat.zero_add, covered, List.getElem?_take_of_lt hi, List.getElem?_drop]
  exact hall i b hslot

end Signature

/-! ## 3. Findings -/

namespace Finding

theorem context_position (s : Signature) (region : List UInt8) (start : Nat) :
    context s region (s.position start) =
      Text.bytesText (s.covered region (min start s.lastExactStart)) := by
  have hstart := s.toInt_start_of_position start
  have hnot : ¬ Int64.ofIntClamp ((s.position start).toInt - s.offset.toInt) < 0 := by
    rw [Int64.lt_iff_toInt_lt, hstart, Int64.toInt_zero]
    omega
  rw [context, window, if_neg hnot, hstart, Int.toNat_natCast, Signature.covered]

/-- What a finding shows for the matches that a search gives: for each one the bytes at its start,
or at the last start that is reported exactly, if the match begins behind that. The bytes that a
match covers match by themselves; so these are shown throughout exactly if no match begins behind
the last start that is reported exactly, or the same bytes stand there. -/
theorem contexts_ofPositions (name : String) (s : Signature) (extent : Extent)
    (region : List UInt8) :
    let starts := s.starts extent region
    let f := ofPositions name s (s.positions extent region) region
    f.contexts.length = f.positions.length ∧
      f.contexts = starts.map (fun start =>
        Text.bytesText (s.covered region (min start s.lastExactStart))) ∧
      (∀ start ∈ starts, (s.covered region start).length = s.length ∧
        s.matchesAt (s.covered region start) 0 = true) ∧
      (f.contexts = starts.map (fun start => Text.bytesText (s.covered region start)) ↔
        ∀ start ∈ starts, start + s.offset.toInt ≤ Int64.maxValue.toInt ∧
            (start : Int) ≤ Int64.maxValue.toInt ∨
          s.covered region s.lastExactStart = s.covered region start) := by
  intro starts f
  have hcontexts : f.contexts = starts.map fun start =>
      Text.bytesText (s.covered region (min start s.lastExactStart)) := by
    show ((s.starts extent region).map s.position).map (context s region) = _
    rw [List.map_map]
    exact List.map_congr_left fun start _ => context_position s region start
  refine ⟨List.length_map .., hcontexts, fun start hstart => ?_, ?_⟩
  · exact Signature.covered_of_matchesAt (Signature.matchesAt_of_mem_starts hstart)
  · rw [hcontexts, List.map_inj_left]
    refine forall₂_congr fun start _ => ?_
    rw [← s.le_lastExactStart_iff start]
    -- Behind the last exact start, its bytes are shown in place of those of the match.
    rcases Nat.lt_or_ge s.lastExactStart start with hlt | hge
    · rw [Nat.min_eq_right (Nat.le_of_lt hlt)]
      refine ⟨fun h => .inr (Text.bytesText_inj h), fun h => ?_⟩
      rw [h.resolve_left (Nat.not_le_of_lt hlt)]
    · rw [Nat.min_eq_left hge]
      exact ⟨fun _ => .inl hge, fun _ => rfl⟩

/-- The offset three is undone, and what is shown are the bytes of the match. -/
theorem contexts_8D_05 :
    let s : Signature := ⟨[.exact 0x8D, .exact 0x05], 3, rfl⟩
    let region : List UInt8 := [0xCC, 0x8D, 0x05, 0x10]
    1 ∈ s.starts (.every none) region ∧ (s.covered region 1).length = s.length ∧
      s.matchesAt (s.covered region 1) 0 = true ∧
      (ofPositions "lea" s (s.positions (.every none) region) region).contexts = ["8D 05"] := by
  intro s region
  obtain ⟨-, hcontexts, hcovered, -⟩ := contexts_ofPositions "lea" s (.every none) region
  have hmem : 1 ∈ s.starts (.every none) region := by decide
  obtain ⟨hlen, hmatch⟩ := hcovered 1 hmem
  exact ⟨hmem, hlen, hmatch, hcontexts.trans (by decide)⟩

/-- With the greatest offset every match is reported at the greatest position, and what is shown for
it is the first byte of the region. -/
theorem contexts_at_greatest_position :
    let s : Signature := ⟨[.exact 0x55], Int64.maxValue, rfl⟩
    let region : List UInt8 := [0x90, 0x55, 0xFF]
    let f := ofPositions "tail" s (s.positions (.every none) region) region
    s.starts (.every none) region = [1] ∧ f.contexts = ["90"] ∧
      Text.bytesText (s.covered region 1) = "55" := by
  decide

end Finding

end ByteScan

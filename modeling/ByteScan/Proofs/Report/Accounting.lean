import ByteScan.Proofs.Tally.Counting
import ByteScan.Report.Basic

/-!
# The sums of a report

A report counts the positions of a finding for the finding's name when the finding is added. Here it
is shown that this comes to what can be read off the findings alone: which names have positions, how
many each of them has, and how many there are in all.

* `Finding.counted`: the name of a finding, once for each of its positions.
* `Finding.hitsOf`: how many positions the findings of a name have.

Results:
1. `Report.foldl_push`: what findings do to a report.
2. `Finding.count_counted`, `Finding.eraseDups_flatMap_counted`: the names that are counted.
3. `Report.hitCounts_accounting`: the sums of a report.
-/

namespace ByteScan

namespace Finding

/-- The name of the finding, once for each of its positions. -/
def counted (f : Finding) : List String :=
  f.positions.map fun _ => f.name

/-- How many positions the findings of a name have in all. -/
def hitsOf (name : String) (fs : List Finding) : Nat :=
  ((fs.filter (·.name = name)).flatMap Finding.positions).length

end Finding

/-! ## 1. Adding findings -/

namespace Report

variable (r : Report) (fs : List Finding)

/-- Adding a finding counts its name once for each of its positions. -/
theorem hitCounts_push (f : Finding) : (r.push f).hitCounts =
    f.counted.foldl (Tally.increment .unsigned64) r.hitCounts := by
  rw [Finding.counted, List.foldl_map]
  rfl

theorem foldl_push : fs.foldl push r =
    { r with
      findings := r.findings ++ fs
      hitCounts := (fs.flatMap Finding.counted).foldl (Tally.increment .unsigned64) r.hitCounts } := by
  induction fs generalizing r with
  | nil => rw [List.foldl_nil, List.append_nil, List.flatMap_nil, List.foldl_nil]
  | cons f fs ih =>
    rw [List.foldl_cons, ih, hitCounts_push, List.flatMap_cons, List.foldl_append, push,
      List.append_assoc, List.singleton_append]

theorem findings_foldl_push : (fs.foldl push r).findings = r.findings ++ fs := by
  rw [foldl_push]

theorem hitCounts_foldl_push : (fs.foldl push r).hitCounts =
    (fs.flatMap Finding.counted).foldl (Tally.increment .unsigned64) r.hitCounts := by
  rw [foldl_push]

end Report

/-! ## 2. The names that are counted -/

namespace Finding

theorem count_counted (name : String) (f : Finding) :
    f.counted.count name = if f.name = name then f.positions.length else 0 := by
  rw [counted, List.map_const', List.count_replicate]
  simp only [beq_iff_eq]

theorem count_flatMap_counted (name : String) (fs : List Finding) :
    (fs.flatMap counted).count name = hitsOf name fs := by
  induction fs with
  | nil => rfl
  | cons f fs ih =>
    rw [List.flatMap_cons, List.count_append, count_counted, ih, hitsOf, hitsOf, List.filter_cons]
    by_cases h : f.name = name
    · simp [h]
    · simp [h]

theorem hitsOf_le (name : String) (fs : List Finding) :
    hitsOf name fs ≤ (fs.flatMap counted).length := by
  rw [← count_flatMap_counted]
  exact List.count_le_length

theorem length_flatMap_counted (fs : List Finding) :
    (fs.flatMap counted).length = fs.foldr (fun f hits => f.positions.length + hits) 0 := by
  induction fs with
  | nil => rfl
  | cons f fs ih =>
    rw [List.flatMap_cons, List.length_append, ih, counted, List.length_map]
    rfl

theorem eraseDups_append_counted (names : List String) (f : Finding) :
    (names ++ f.counted).eraseDups =
      if f.isHit then (names ++ [f.name]).eraseDups else names.eraseDups := by
  rw [counted, List.map_const', isHit]
  cases f.positions with
  | nil =>
    rw [List.length_nil, List.replicate_zero, List.append_nil]
    rfl
  | cons p positions =>
    rw [List.length_cons, eraseDups_append_replicate]
    rfl

/-- The names that are counted are the names of the findings that have a position. -/
theorem eraseDups_flatMap_counted (fs : List Finding) :
    (fs.flatMap counted).eraseDups = ((fs.filter isHit).map name).eraseDups := by
  induction fs using List.reverseRecOn with
  | nil => rfl
  | append_singleton fs f ih =>
    rw [List.flatMap_append, List.flatMap_singleton, eraseDups_append_counted, List.filter_append,
      List.map_append]
    by_cases hhit : f.isHit = true
    · rw [if_pos hhit, List.filter_singleton, hhit, eraseDups_concat, ih, ← eraseDups_concat]
      rfl
    · rw [if_neg hhit, List.filter_singleton, Bool.eq_false_iff.mpr hhit, ih]
      exact (congrArg List.eraseDups (List.append_nil _)).symm

end Finding

/-! ## 3. Reports -/

namespace Report

/-- What a report says in sum after any findings have been added to it. The names that are counted
are those of the findings that have a position, in the order in which they first had one. The count
of a name is the number of positions in all findings of that name, up to the greatest number that a
count can hold, and if no name has more, the counts add up to the number of all positions. -/
theorem hitCounts_accounting (source : String) (regionSize : Nat) (fs : List Finding) :
    let r := fs.foldl push { source, regionSize }
    let hits := fs.filter Finding.isHit
    r.findings = fs ∧
      r.hitCounts.keys = (hits.map Finding.name).eraseDups ∧
      r.hitCounts.entries = r.hitCounts.keys.map (fun name =>
        (name, min (Finding.hitsOf name fs : Int) CountType.unsigned64.max)) ∧
      ((∀ name, (Finding.hitsOf name fs : Int) ≤ CountType.unsigned64.max) →
        (r.hitCounts.entries.map Prod.snd).sum = r.totalHits) ∧
      r.matchedSignatures = hits.length ∧
      r.hitCounts.keys.length ≤ r.matchedSignatures := by
  intro r hits
  have hmax : 1 ≤ CountType.unsigned64.max := by decide
  have hentries : r.hitCounts.entries = (fs.flatMap Finding.counted).eraseDups.map fun name =>
      (name, min (Finding.hitsOf name fs : Int) CountType.unsigned64.max) := by
    rw [hitCounts_foldl_push, Tally.entries_foldl_increment hmax]
    simp only [Finding.count_flatMap_counted]
  have hkeys : r.hitCounts.keys = (fs.flatMap Finding.counted).eraseDups := by
    rw [Tally.keys, hentries, List.map_map]
    exact List.map_id _
  have hfindings : r.findings = fs := findings_foldl_push _ fs
  refine ⟨hfindings, ?_, ?_, fun huncapped => ?_, ?_, ?_⟩
  · rw [hkeys, Finding.eraseDups_flatMap_counted]
  · rw [hentries, hkeys]
  · -- No count is cut off, so each key has the number of times that its name is counted.
    have hsum : ((r.hitCounts.entries.map Prod.snd).sum : Int) =
        (((fs.flatMap Finding.counted).eraseDups.map (fs.flatMap Finding.counted).count).sum : Nat)
        := by
      rw [hentries, List.map_map, Nat.cast_list_sum, List.map_map]
      refine congrArg List.sum (List.map_congr_left fun name _ => ?_)
      rw [Function.comp_apply, Function.comp_apply, Finding.count_flatMap_counted]
      exact Int.min_eq_left (huncapped name)
    rw [hsum, sum_count_eraseDups, Finding.length_flatMap_counted, totalHits, hfindings]
  · rw [matchedSignatures, hfindings, List.countP_eq_length_filter]
  · rw [hkeys, Finding.eraseDups_flatMap_counted, matchedSignatures, hfindings,
      List.countP_eq_length_filter, ← List.length_map Finding.name]
    exact (List.subperm_of_subset (nodup_eraseDups _) fun _ => List.mem_eraseDups.mp).length_le

/-- A name that comes twice has one count, and a finding without positions has none. -/
theorem hitCounts_upx_twice :
    let finding (name : String) (positions : List Int64) : Finding :=
      { name, signature := "90", mask := "x", offset := 0, positions, contexts := [] }
    let fs := [finding "upx" [1, 4], finding "none" [], finding "asp" [2], finding "upx" [7]]
    let r := fs.foldl push { source := "stdin", regionSize := 8 }
    (∀ name, (Finding.hitsOf name fs : Int) ≤ CountType.unsigned64.max) ∧
      (r.hitCounts.entries.map Prod.snd).sum = r.totalHits ∧
      r.hitCounts.entries = [("upx", 3), ("asp", 1)] := by
  intro finding fs r
  have huncapped : ∀ name, (Finding.hitsOf name fs : Int) ≤ CountType.unsigned64.max := by
    intro name
    have hle := Finding.hitsOf_le name fs
    have hmax : ((fs.flatMap Finding.counted).length : Int) ≤ CountType.unsigned64.max := by decide
    omega
  obtain ⟨-, -, -, hsum, -⟩ := hitCounts_accounting "stdin" 8 fs
  exact ⟨huncapped, hsum huncapped, by decide⟩

end Report

end ByteScan

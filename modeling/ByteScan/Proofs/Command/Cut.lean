import ByteScan.Proofs.Command.Searching
import ByteScan.Proofs.Report.Accounting

/-!
# Reports that are cut off

If no more than a number of matches is wanted, the matches are those that come first. So each finding
is cut off behind its first positions, and its contexts with them. A report on findings that are cut off
counts what is left of them.

* `Finding.cut`, `Report.cut`, `Yield.cut`: a finding, a report and what a command comes to, each of
  them cut off.
* `Finding.counts`: the counts of a report, read off its findings.

Results:
1. `Signature.positions_every_some`, `Database.Entry.finding?_every_some`: a limit on findings.
2. `Target.report_eq`, `Target.report_map_cut`: reports.
-/

namespace ByteScan

/-! ## Definitions -/

/-- The finding with its first `n` positions and their contexts. -/
def Finding.cut (n : Nat) (f : Finding) : Finding :=
  { f with positions := f.positions.take n, contexts := f.contexts.take n }

/-- How many positions the findings of each name have, in the order in which the names first have
one. -/
def Finding.counts (fs : List Finding) : Tally :=
  ⟨((fs.filter isHit).map name).eraseDups.map fun name =>
    (name, min (hitsOf name fs : Int) CountType.unsigned64.max)⟩

/-- The report with each finding cut off, and what is left of them counted. -/
def Report.cut (n : Nat) (r : Report) : Report :=
  { r with
    findings := r.findings.map (Finding.cut n)
    hitCounts := Finding.counts (r.findings.map (Finding.cut n)) }

/-- What a command comes to with its report cut off. There is nothing in a summary to cut off. -/
def Yield.cut (n : Nat) : Yield → Yield
  | .report r => .report (r.cut n)
  | .summary s => .summary s

/-! ## 1. Findings -/

section Findings

variable {k : UInt64} {region : List UInt8}

theorem Signature.positions_every_some (s : Signature) (k : UInt64) (region : List UInt8) :
    s.positions (.every (some k)) region = (s.positions (.every none) region).take k.toNat := by
  rw [positions, positions, starts_every, ← List.map_take, starts, Cursor.take_fst,
    Cursor.remaining_start]

theorem Finding.cut_ofPositions (name : String) (s : Signature) (positions : List Int64)
    (region : List UInt8) (n : Nat) : (ofPositions name s positions region).cut n =
      ofPositions name s (positions.take n) region := by
  unfold cut ofPositions
  rw [List.map_take]

/-- A limit above zero leaves something of every finding. -/
theorem Database.Entry.finding?_every_some (hk : k ≠ 0) (e : Entry) :
    e.finding? (.every (some k)) region =
      (e.finding? (.every none) region).map (Finding.cut k.toNat) := by
  have hpos : k.toNat ≠ 0 := fun hzero => hk (UInt64.toNat_inj.mp hzero)
  unfold finding?
  rw [Signature.positions_every_some]
  by_cases hnil : e.signature.positions (.every none) region = []
  · rw [if_pos hnil, hnil, List.take_nil, if_pos rfl]
    rfl
  · have htake : (e.signature.positions (.every none) region).take k.toNat ≠ [] := fun h =>
      (List.take_eq_nil_iff.mp h).elim hpos hnil
    rw [if_neg hnil, if_neg htake, Option.map_some, Finding.cut_ofPositions]

end Findings

/-! ## 2. Reports -/

/-- Counting the findings' names one after another. -/
theorem Finding.foldl_counted (fs : List Finding) :
    (fs.flatMap counted).foldl (Tally.increment .unsigned64) {} = counts fs := by
  have hmax : 1 ≤ CountType.unsigned64.max := by decide
  refine congrArg Tally.mk ((Tally.entries_foldl_increment hmax _).trans ?_)
  rw [eraseDups_flatMap_counted]
  simp only [count_flatMap_counted]

namespace Target

variable (t : Target) (region : List UInt8) (fs : List Finding)

theorem report_eq : t.report region fs =
    { source := t.source, regionSize := region.length, findings := fs,
      hitCounts := Finding.counts fs } := by
  rw [report, Report.foldl_push, List.nil_append, Finding.foldl_counted]

/-- The report on findings that are cut off is the report that is cut off. -/
theorem report_map_cut (n : Nat) :
    t.report region (fs.map (Finding.cut n)) = (t.report region fs).cut n := by
  rw [report_eq, report_eq]
  rfl

end Target

end ByteScan

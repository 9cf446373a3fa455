import ByteScan.Json.Printer
import ByteScan.Report.Basic

/-!
# Reports as JSON

The members of a report and of its findings come in the order of the structures' fields, and the hit
counts in the order in which their names first had a position.
-/

namespace ByteScan

/-- A finding as JSON. -/
def Finding.toJson (f : Finding) : Json :=
  .ofMembers [
    ("name", .ofText f.name),
    ("signature", .ofText f.signature),
    ("mask", .ofText f.mask),
    ("report_offset", .ofInt f.offset.toInt),
    ("positions", .array (f.positions.map fun p => .ofInt p.toInt)),
    ("context", .array (f.contexts.map .ofText))]

/-- A tally as JSON: each key with its count. -/
def Tally.toJson (t : Tally) : Json :=
  .ofMembers (t.entries.map fun (key, count) => (key, .ofInt count))

/-- A report as JSON. -/
def Report.toJson (r : Report) : Json :=
  .ofMembers [
    ("source", .ofText r.source),
    ("region_size", .ofNat r.regionSize),
    ("results", .array (r.findings.map Finding.toJson)),
    ("hit_counts", r.hitCounts.toJson)]

end ByteScan

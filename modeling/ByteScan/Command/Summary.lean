import ByteScan.Json.Printer
import ByteScan.Report.Style
import ByteScan.Signature.Text

/-!
# Summaries of signatures

What a signature is made of: its text, its mask, its length, its anchor and how many of its slots are
exact. A summary is written for people or as JSON.
-/

namespace ByteScan.Signature

/-- A line of a summary: what is said, and what of. -/
def summaryLine (color : Bool) (label value : String) : String :=
  Style.cyan.paint color label ++ " " ++ value ++ "\n"

/-- The lines of the summary for people. -/
def summaryLines (color : Bool) (s : Signature) : List String := [
  summaryLine color "Signature:" s.text,
  summaryLine color "Mask:     " s.mask.text,
  summaryLine color "Length:   " s!"{s.length}",
  summaryLine color "Anchor:   " s!"{s.anchorIndex} (0x{Text.byteText s.anchorByte})",
  summaryLine color "Bytes:    " s!"{s.mask.exactCount} exact, {s.mask.wildcardCount} wildcard"]

/-- The summary for people. -/
def summaryText (color : Bool) (s : Signature) : String :=
  String.join (s.summaryLines color)

/-- The summary as JSON, with its members in alphabetical order. -/
def summaryJson (s : Signature) : Json :=
  .ofMembers [
    ("anchor_byte", .ofText (Text.byteText s.anchorByte)),
    ("anchor_index", .ofNat s.anchorIndex),
    ("exact", .ofNat s.mask.exactCount),
    ("length", .ofNat s.length),
    ("mask", .ofText s.mask.text),
    ("signature", .ofText s.text),
    ("wildcards", .ofNat s.mask.wildcardCount)]

end ByteScan.Signature

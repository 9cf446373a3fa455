import ByteScan.Report.Basic
import ByteScan.Report.Style
import ByteScan.Size

/-!
# Reports in text

The text of a report has a line for the region, then for each finding a line with the name and a line
for each position, and at the end a line with the sums.
-/

namespace ByteScan

/-- A position in hexadecimal with at least eight digits. A position below zero is its magnitude with
a minus sign in front. -/
def positionText (p : Int64) : String :=
  (if p < 0 then "-0x" else "0x") ++ Text.paddedHex 8 p.toInt.natAbs

namespace Finding

/-- The line for a position and the bytes found there. -/
def hitText (color : Bool) (position : Int64) (context : String) : String :=
  "    " ++ Style.yellow.paint color (positionText position) ++ "  " ++
    Style.dimmed.paint color context ++ "\n"

/-- The lines of a finding. -/
def text (color : Bool) (f : Finding) : String :=
  if f.isHit then
    Style.green.paint color "[+]" ++ " " ++ Style.bold.paint color f.name ++ ": " ++ f.signature ++
      "\n" ++ String.join (List.zipWith (hitText color) f.positions f.contexts)
  else Style.red.paint color "[-]" ++ " " ++ f.name ++ ": no match\n"

end Finding

namespace Report

/-- The line for the region. -/
def headText (color : Bool) (r : Report) : String :=
  Style.blue.paint color "[*]" ++ s!" Scanned {r.source} ({Size.text r.regionSize})\n"

/-- The line with the sums. -/
def sumText (color : Bool) (r : Report) : String :=
  Style.blue.paint color "[*]" ++
    s!" {r.matchedSignatures} of {r.findings.length} signature(s) matched, {r.totalHits} hit(s)\n"

/-- The text of a report. -/
def text (color : Bool) (r : Report) : String :=
  r.headText color ++ String.join (r.findings.map (Finding.text color)) ++ r.sumText color

end Report

end ByteScan

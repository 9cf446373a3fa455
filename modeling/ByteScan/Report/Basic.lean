import ByteScan.Search.Cursor
import ByteScan.Signature.Text
import ByteScan.Tally

/-!
# Reports

A report says what a search came to: for each signature that was searched for a finding, and over all
findings how often each name was found. `Report.Text` and `Report.Json` write reports.
-/

namespace ByteScan

/-- The bytes of a region that a match at `position` covers, as far as they are in the region. A
position below zero is outside. -/
def window (region : List UInt8) (position : Int64) (length : Nat) : List UInt8 :=
  if position < 0 then [] else (region.drop position.toInt.toNat).take length

/-- What a search for one signature came to. -/
structure Finding where
  name : String
  /-- The signature's text. -/
  signature : String
  /-- The signature's mask. -/
  mask : String
  /-- The signature's offset. -/
  offset : Int64
  /-- Where the signature was found. -/
  positions : List Int64
  /-- For each position the bytes found there, in text. -/
  contexts : List String
  deriving DecidableEq, Repr

namespace Finding

/-- The bytes that were found at a position, in text. They are looked up where the match begins, that
is, with the signature's offset taken off the position again. -/
def context (s : Signature) (region : List UInt8) (position : Int64) : String :=
  let start := Int64.ofIntClamp (position.toInt - s.offset.toInt)
  Text.bytesText (window region start s.length)

/-- The finding for a signature that was found at these positions of a region. -/
def ofPositions (name : String) (s : Signature) (positions : List Int64) (region : List UInt8) :
    Finding where
  name := name
  signature := s.text
  mask := s.mask.text
  offset := s.offset
  positions := positions
  contexts := positions.map (context s region)

/-- Whether the signature was found at all. -/
def isHit (f : Finding) : Bool :=
  !f.positions.isEmpty

end Finding

/-- What a search came to. -/
structure Report where
  /-- Where the region came from. -/
  source : String
  /-- How many bytes the region has. -/
  regionSize : Nat
  /-- One finding for each signature, in the order in which they were added. -/
  findings : List Finding := []
  /-- How many positions the findings of each name have. -/
  hitCounts : Tally := {}
  deriving DecidableEq, Repr

namespace Report

/-- The report with one more finding. Each of its positions counts for its name. -/
def push (r : Report) (f : Finding) : Report :=
  { r with
    findings := r.findings ++ [f]
    hitCounts := f.positions.foldl (fun t _ => t.increment .unsigned64 f.name) r.hitCounts }

/-- How many positions there are in all findings. -/
def totalHits (r : Report) : Nat :=
  r.findings.foldr (fun f hits => f.positions.length + hits) 0

/-- How many findings have a position. -/
def matchedSignatures (r : Report) : Nat :=
  r.findings.countP Finding.isHit

end Report

end ByteScan

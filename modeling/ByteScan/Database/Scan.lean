import ByteScan.Database.Basic
import ByteScan.Event
import ByteScan.Search.Cursor

/-!
# Searching for a whole database

Every entry of a database is searched for in the same region. Entries without a match are left out
of the answer, and the others keep the order of the database, whether they were searched one after
another or at the same time.
-/

namespace ByteScan

namespace Database

/-- Where one entry of a database was found. -/
structure EntryHits where
  /-- The entry's place in the database. -/
  index : Nat
  name : String
  positions : List Int64
  deriving DecidableEq, Repr

/-- Where an entry is found, if anywhere. -/
def Entry.hits? (extent : Extent) (region : List UInt8) (index : Nat) (e : Entry) :
    Option EntryHits :=
  match e.signature.positions extent region with
  | [] => none
  | positions => some { index, name := e.name, positions }

/-- What a search for an entry notes. The matches are noted only if all of them are wanted. -/
def Entry.events (extent : Extent) (region : List UInt8) (e : Entry) : List Event :=
  let starts := e.signature.starts extent region
  let matched :=
    match extent with
    | .first => []
    | .every _ => starts.map (.matched e.signature)
  if starts.isEmpty then [] else matched ++ [.entryHit e.name starts.length]

end Database

/-- How a database is searched for. -/
structure Scanner where
  /-- Whether entries may be searched for at the same time. -/
  parallel : Bool := true
  /-- How many matches of an entry are wanted when all are asked for. -/
  maxMatches : Option UInt64 := none
  deriving DecidableEq, Repr

namespace Scanner

open Database (EntryHits)

/-- Applies a function to each element, to all elements at the same time if `parallel` is set. The
results come in the order of the list in both cases. -/
def mapWith {α β : Type} (parallel : Bool) (f : α → β) (xs : List α) : List β :=
  if parallel then (xs.map fun x => Task.spawn fun _ => f x).map Task.get else xs.map f

/-- The matches of every entry that has one. -/
def hits (s : Scanner) (extent : Extent) (region : List UInt8) (d : Database) : List EntryHits :=
  (mapWith s.parallel (fun (e, index) => Database.Entry.hits? extent region index e)
    d.entries.zipIdx).filterMap id

/-- The first match of every entry that has one. -/
def firstHits (s : Scanner) (region : List UInt8) (d : Database) : List EntryHits :=
  s.hits .first region d

/-- All matches of every entry that has one, or the first `maxMatches` of them. -/
def allHits (s : Scanner) (region : List UInt8) (d : Database) : List EntryHits :=
  s.hits (.every s.maxMatches) region d

/-- What a search one entry after another notes. -/
def events (extent : Extent) (region : List UInt8) (d : Database) : List Event :=
  d.entries.flatMap (Database.Entry.events extent region)

end Scanner

end ByteScan

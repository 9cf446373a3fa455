import ByteScan.Database.Section

/-!
# Reading database files

`Database.parse` reads a whole file. In strict mode the first fault ends it. In lenient mode a section
that makes no entry is left out; only lines that belong to no section, and lines that are neither
header nor setting, still end it.
-/

namespace ByteScan.Database

/-- The entry of a section, or none if the section is left out. -/
def Section.readEntry (mode : Mode) (s : Section) : Logged Event DatabaseError (Option Entry) := do
  let settings ← s.settings mode
  let built := s.build settings
  match built.result, mode with
  | .ok e, _ => ⟨built.events, .ok (some e)⟩
  | .error fault, .strict => ⟨built.events, .error fault⟩
  | .error fault, .lenient => ⟨built.events ++ [.skippedEntry fault], .ok none⟩

/-- The entries of some sections, in order. -/
def entriesOf (mode : Mode) : List Section → Logged Event DatabaseError (List Entry)
  | [] => return []
  | s :: sections => do
    let entry ← s.readEntry mode
    let entries ← entriesOf mode sections
    return entry.toList ++ entries

/-- Reads a database file. -/
def parse (mode : Mode) (text : String) : Logged Event DatabaseError Database := do
  let (front, sections) := split (numberedLines text)
  match front.findSome? fun (number, line) => line.faultOutside? number with
  | some fault => .fail fault
  | none =>
    let entries ← entriesOf mode sections
    .note (.parsed entries.length)
    return ⟨entries⟩

end ByteScan.Database

import ByteScan.Event
import ByteScan.Text.Lines

/-!
# Sections of a database file

A database file is cut into lines, and the lines into sections. A section begins with a header
`[name]` and goes to the next header; the lines before the first header belong to no section.

This module says what a line is (`Line`), how lines are grouped (`split`) and what the lines of one
section say (`Section.settings`). `Database.Parser` makes entries of sections.
-/

namespace ByteScan.Database

/-- How bad entries are dealt with. -/
inductive Mode where
  /-- The first fault ends the reading. -/
  | strict
  /-- A bad entry is left out, and a bad value of `ep_only` is taken for false. -/
  | lenient
  deriving DecidableEq, Repr

/-- What a line of a database file is. -/
inductive Line where
  /-- Nothing to read: blank, or a comment that begins with `;` or `#`. -/
  | ignored
  /-- The header of a section. -/
  | header (name : String)
  /-- A key and its value. The key is in lower case. -/
  | setting (key value : String)
  /-- None of these. -/
  | stray (content : String)
  deriving DecidableEq, Repr

namespace Line

/-- The text between `[` and `]`, if a line begins with the one and ends with the other. One
character cannot be both. -/
def bracketed? : List Char → Option (List Char)
  | '[' :: rest => if rest.getLast? = some ']' then some rest.dropLast else none
  | _ => none

/-- Reads a line without its blanks at both ends. -/
def ofTrimmed (cs : List Char) : Line :=
  match cs with
  | [] | ';' :: _ | '#' :: _ => .ignored
  | cs =>
    match bracketed? cs with
    | some name => .header (String.ofList (Text.trim name))
    | none =>
      match cs.dropWhile (· ≠ '=') with
      | [] => .stray (String.ofList cs)
      | _ :: value =>
        let key := Text.trim (cs.takeWhile (· ≠ '='))
        .setting (String.ofList (key.map Char.toLower)) (String.ofList (Text.trim value))

/-- Reads a line. -/
def ofChars (cs : List Char) : Line :=
  ofTrimmed (Text.trim cs)

/-- Why a line cannot stand before the first header. -/
def faultOutside? (number : Nat) : Line → Option DatabaseError
  | .ignored | .header _ => none
  | .setting key _ => some (.outsideSection number key)
  | .stray content => some (.unexpectedLine number content)

end Line

/-- A header and the lines up to the next one, each with its number. -/
structure Section where
  name : String
  /-- The number of the header's line. -/
  line : Nat
  body : List (Nat × Line)
  deriving DecidableEq, Repr

/-- The lines of a text with their numbers, which begin with one. -/
def numberedLines (text : String) : List (Nat × Line) :=
  (Text.lines text.toList).mapIdx fun i cs => (i + 1, Line.ofChars cs)

/-- Cuts lines at the headers: the lines before the first header, and the sections. -/
def split (lines : List (Nat × Line)) : List (Nat × Line) × List Section :=
  lines.foldr
    (fun (number, line) (front, sections) =>
      match line with
      | .header name => ([], ⟨name, number, front⟩ :: sections)
      | line => ((number, line) :: front, sections))
    ([], [])

namespace Section

/-- What the lines of a section say. -/
structure Settings where
  /-- The text of the last signature, and its line. -/
  signature : Option (String × Nat) := none
  /-- The last value of `ep_only`. -/
  entryPointOnly : Bool := false
  deriving DecidableEq, Repr

/-- The settings after one more line. -/
def readLine (mode : Mode) (settings : Settings) (number : Nat) :
    Line → Logged Event DatabaseError Settings
  | .ignored | .header _ => return settings
  | .stray content => .fail (.unexpectedLine number content)
  | .setting "signature" value => return { settings with signature := some (value, number) }
  | .setting "ep_only" value =>
    match value.map Char.toLower, mode with
    | "true", _ => return { settings with entryPointOnly := true }
    | "false", _ => return { settings with entryPointOnly := false }
    | _, .strict => .fail (.invalidEntryPointOnly number value)
    | _, .lenient => do
      .note (.assumedFalse (.invalidEntryPointOnly number value))
      return { settings with entryPointOnly := false }
  | .setting key _ => do
    .note (.ignoredKey number key)
    return settings

/-- The settings after some more lines. -/
def readLines (mode : Mode) (settings : Settings) :
    List (Nat × Line) → Logged Event DatabaseError Settings
  | [] => return settings
  | (number, line) :: lines => do
    let settings ← readLine mode settings number line
    readLines mode settings lines

/-- What the lines of a section say. -/
def settings (mode : Mode) (s : Section) : Logged Event DatabaseError Settings :=
  readLines mode {} s.body

/-- The entry that a section with these settings stands for. -/
def build (s : Section) (settings : Settings) : Logged Event DatabaseError Entry :=
  match settings.signature with
  | none => .fail (.missingSignature s.name s.line)
  | some (text, line) => do
    let signature ←
      (Signature.noted (Signature.ofText text)).mapError (.signature s.name line)
    return { name := s.name, signature, entryPointOnly := settings.entryPointOnly, line := s.line }

end Section

end ByteScan.Database

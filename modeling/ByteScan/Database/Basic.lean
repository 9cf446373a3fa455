import ByteScan.Signature.Text

/-!
# Signature databases

A database is a list of named signatures in the order of its file. Names need not be different.
-/

namespace ByteScan

namespace Database

/-- A named signature. -/
structure Entry where
  name : String
  signature : Signature
  /-- Whether the signature is meant for the entry point of a program. It is kept as a note: a search
  does not look at it. -/
  entryPointOnly : Bool := false
  /-- The line of the entry's header, counted from one. Zero if the entry comes from no file. -/
  line : Nat := 0
  deriving DecidableEq, Repr

end Database

/-- Named signatures, in order. -/
structure Database where
  entries : List Database.Entry := []
  deriving DecidableEq, Repr

namespace Database

/-- The database with one more entry at its end. -/
def add (d : Database) (e : Entry) : Database :=
  ⟨d.entries ++ [e]⟩

/-- The first entry of this name. -/
def get? (d : Database) (name : String) : Option Entry :=
  d.entries.find? (·.name = name)

end Database

/-- Why a database file is refused. Lines are counted from one. -/
inductive DatabaseError where
  /-- A key with a value stands before the first section. -/
  | outsideSection (line : Nat) (key : String)
  /-- A line is neither a header nor a key with a value. -/
  | unexpectedLine (line : Nat) (content : String)
  /-- The value of `ep_only` is neither true nor false. -/
  | invalidEntryPointOnly (line : Nat) (value : String)
  /-- A section has no signature. -/
  | missingSignature (name : String) (line : Nat)
  /-- The signature of a section is refused. -/
  | signature (name : String) (line : Nat) (cause : SignatureError)
  deriving DecidableEq, Repr

/-- The message for a fault. -/
def DatabaseError.message : DatabaseError → String
  | .outsideSection line key => s!"Line {line}: '{key}' appears outside of a [section]"
  | .unexpectedLine line content => s!"Line {line}: unrecognized line '{content}'"
  | .invalidEntryPointOnly line value => s!"Line {line}: invalid ep_only value '{value}'"
  | .missingSignature name line => s!"Entry '{name}' (line {line}) has no signature"
  | .signature name line cause => s!"Entry '{name}' (line {line}): {cause.message}"

end ByteScan

/-!
# JSON values

A JSON value as this library reads and writes it. The members of an object keep their order, and a
name may occur more than once.

Two things that a document can say are not kept, because nothing here has a use for them:

* the value of a number with a fraction or an exponent, and of minus zero (`Atom.inexact`);
* the characters of a string in which an escape stands for half a surrogate pair. Such a string is
  grammatical, but there is no text that it denotes (`Atom.string none`).
-/

namespace ByteScan.Json

/-- A JSON value without parts. -/
inductive Atom where
  | null
  | bool (b : Bool)
  /-- A number written without fraction and exponent, other than minus zero. -/
  | integer (n : Int)
  /-- Any other number. -/
  | inexact
  /-- A string and the text it denotes, if it denotes one. -/
  | string (text : Option String)
  deriving DecidableEq, Repr

end ByteScan.Json

namespace ByteScan

/-- A JSON value. -/
inductive Json where
  | atom (a : Json.Atom)
  | array (items : List Json)
  | object (members : List (Option String × Json))
  deriving Repr

namespace Json

/-- The value for a text. -/
def ofText (text : String) : Json :=
  .atom (.string (some text))

/-- The value for a whole number. -/
def ofInt (n : Int) : Json :=
  .atom (.integer n)

/-- The value for a natural number. -/
def ofNat (n : Nat) : Json :=
  .ofInt n

/-- The value for a truth value. -/
def ofBool (b : Bool) : Json :=
  .atom (.bool b)

/-- The value that stands for nothing. -/
def null : Json :=
  .atom .null

/-- The object with these members. -/
def ofMembers (members : List (String × Json)) : Json :=
  .object (members.map fun (name, value) => (some name, value))

end Json

end ByteScan

import ByteScan.Json.Token

/-!
# Writing JSON

A value is written in one of two layouts. The compact one has no blanks. The pretty one has each item
and member on a line of its own, two spaces further in than the line of the bracket or brace around
it; an array or object without parts is written on one line.

Both have the same tokens, those of `Json.tokens`.
-/

namespace ByteScan

namespace Json

/-! ## Tokens -/

mutual

/-- The tokens of a value. -/
def tokens : Json → List Token
  | .atom a => [.atom a]
  | .array [] => [.openArray, .closeArray]
  | .array (v :: vs) => .openArray :: (tokens v ++ moreItems vs)
  | .object [] => [.openObject, .closeObject]
  | .object ((name, v) :: ms) =>
    .openObject :: .atom (.string name) :: .colon :: (tokens v ++ moreMembers ms)

/-- The tokens behind the first item of an array. -/
def moreItems : List Json → List Token
  | [] => [.closeArray]
  | v :: vs => .comma :: (tokens v ++ moreItems vs)

/-- The tokens behind the first member of an object. -/
def moreMembers : List (Option String × Json) → List Token
  | [] => [.closeObject]
  | (name, v) :: ms =>
    .comma :: .atom (.string name) :: .colon :: (tokens v ++ moreMembers ms)

end

/-! ## Layouts -/

/-- The value without blanks. -/
def compact (v : Json) : String :=
  String.join (v.tokens.map Token.text)

/-- A new line that begins this many steps in. -/
def newLine (depth : Nat) : String :=
  String.ofList ('\n' :: List.replicate (2 * depth) ' ')

mutual

/-- The value over several lines, the first of which stands this many steps in. -/
def prettyAt (depth : Nat) : Json → String
  | .atom a => a.text
  | .array [] => "[]"
  | .array (v :: vs) => "[" ++ newLine (depth + 1) ++ prettyAt (depth + 1) v ++ prettyItems depth vs
  | .object [] => "\x7b\x7d"
  | .object ((name, v) :: ms) =>
    "\x7b" ++ newLine (depth + 1) ++ stringText name ++ ": " ++ prettyAt (depth + 1) v ++
      prettyMembers depth ms

/-- What follows the first item of an array. -/
def prettyItems (depth : Nat) : List Json → String
  | [] => newLine depth ++ "]"
  | v :: vs => "," ++ newLine (depth + 1) ++ prettyAt (depth + 1) v ++ prettyItems depth vs

/-- What follows the first member of an object. -/
def prettyMembers (depth : Nat) : List (Option String × Json) → String
  | [] => newLine depth ++ "\x7d"
  | (name, v) :: ms =>
    "," ++ newLine (depth + 1) ++ stringText name ++ ": " ++ prettyAt (depth + 1) v ++
      prettyMembers depth ms

end

/-- The value over several lines. -/
def pretty (v : Json) : String :=
  prettyAt 0 v

end Json

end ByteScan

import ByteScan.Json.Token

/-!
# Reading JSON

A document is read from its tokens, one after another. The reader holds the arrays and objects that
are not closed yet, innermost first, and what it expects next. It works in constant depth however
deeply the document is nested.
-/

namespace ByteScan

namespace Json

/-- An array or object that is not closed yet, with its parts so far in reverse order. -/
inductive Frame where
  | array (items : List Json)
  /-- The last name is that of the member whose value is being read. -/
  | object (members : List (Option String × Json)) (name : Option String)

/-- What the reader expects. -/
inductive Expect where
  /-- A value. -/
  | value
  /-- The first item of an array, or its end. -/
  | firstItem
  /-- The first name in an object, or its end. -/
  | firstName
  /-- The next name in an object with these members, in reverse order. -/
  | name (members : List (Option String × Json))
  /-- The colon behind a name. -/
  | colon (members : List (Option String × Json)) (name : Option String)
  /-- What may come behind a value. -/
  | after (v : Json)

/-- Reads tokens to the end of the document. -/
def readFrom : List Frame → Expect → List Token → Option Json
  | [], .after v, [] => some v
  | .array items :: up, .after v, .comma :: ts =>
    readFrom (.array (v :: items) :: up) .value ts
  | .array items :: up, .after v, .closeArray :: ts =>
    readFrom up (.after (.array (v :: items).reverse)) ts
  | .object members name :: up, .after v, .comma :: ts =>
    readFrom up (.name ((name, v) :: members)) ts
  | .object members name :: up, .after v, .closeObject :: ts =>
    readFrom up (.after (.object ((name, v) :: members).reverse)) ts
  | .array _ :: up, .firstItem, .closeArray :: ts => readFrom up (.after (.array [])) ts
  | up, .firstName, .closeObject :: ts => readFrom up (.after (.object [])) ts
  | up, .firstName, .atom (.string name) :: ts => readFrom up (.colon [] name) ts
  | up, .name members, .atom (.string name) :: ts => readFrom up (.colon members name) ts
  | up, .colon members name, .colon :: ts => readFrom (.object members name :: up) .value ts
  | up, .value, .atom a :: ts => readFrom up (.after (.atom a)) ts
  | up, .value, .openArray :: ts => readFrom (.array [] :: up) .firstItem ts
  | up, .value, .openObject :: ts => readFrom up .firstName ts
  | up, .firstItem, .atom a :: ts => readFrom up (.after (.atom a)) ts
  | up, .firstItem, .openArray :: ts => readFrom (.array [] :: up) .firstItem ts
  | up, .firstItem, .openObject :: ts => readFrom up .firstName ts
  | _, _, _ => none

/-- The value that tokens write. -/
def ofTokens? (ts : List Token) : Option Json :=
  readFrom [] .value ts

/-- The value that a document holds. -/
def read? (text : String) : Option Json :=
  scan text >>= ofTokens?

end Json

end ByteScan

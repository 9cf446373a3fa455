import ByteScan.Json.Basic
import ByteScan.Text.Decimal
import ByteScan.Text.Hex

/-!
# JSON tokens

A JSON document is a series of tokens with blanks between them: brackets, braces, commas, colons, and
the values without parts. `Token.text` writes a token, and `scan` cuts a text into tokens.

Two values never stand side by side in a document. So it does no harm that `scan` would cut a text
such as `01` into two numbers: the reader refuses it.
-/

namespace ByteScan.Json

/-- A token of a JSON document. -/
inductive Token where
  | openArray
  | closeArray
  | openObject
  | closeObject
  | comma
  | colon
  | atom (a : Atom)
  deriving DecidableEq, Repr

/-! ## Writing -/

/-- A character as it is written in a string. Only quotes, backslashes and control characters are
escaped. -/
def escape (c : Char) : List Char :=
  if c = '"' then ['\\', '"']
  else if c = '\\' then ['\\', '\\']
  else if c = '\n' then ['\\', 'n']
  else if c = '\r' then ['\\', 'r']
  else if c = '\t' then ['\\', 't']
  else if c = '\x08' then ['\\', 'b']
  else if c = '\x0c' then ['\\', 'f']
  else if c.toNat < 0x20 then
    ['\\', 'u', '0', '0', Nat.digitChar (c.toNat / 16), Nat.digitChar (c.toNat % 16)]
  else [c]

/-- The string for a text. -/
def quote (text : String) : String :=
  "\"" ++ String.ofList (text.toList.flatMap escape) ++ "\""

/-- A string with a text, or without one. The latter is written as half a surrogate pair. -/
def stringText : Option String → String
  | some text => quote text
  | none => "\"\\ud800\""

/-- A value without parts as it is written. -/
def Atom.text : Atom → String
  | .null => "null"
  | .bool true => "true"
  | .bool false => "false"
  | .integer n => toString n
  | .inexact => "0.0"
  | .string s => stringText s

/-- A token as it is written. -/
def Token.text : Token → String
  | .openArray => "["
  | .closeArray => "]"
  | .openObject => "\x7b"
  | .closeObject => "\x7d"
  | .comma => ","
  | .colon => ":"
  | .atom a => a.text

/-! ## Strings -/

/-- A part of a string: a character, or an escape for a number of sixteen bits. -/
inductive Piece where
  | char (c : Char)
  | unit (n : Nat)
  deriving DecidableEq, Repr

/-- The number that four hexadecimal digits write. -/
def unit? (a b c d : Char) : Option Nat := do
  let a ← Text.hexValue? a
  let b ← Text.hexValue? b
  let c ← Text.hexValue? c
  let d ← Text.hexValue? d
  return ((a * 16 + b) * 16 + c) * 16 + d

/-- The character that an escape of one letter stands for. -/
def unescape? : Char → Option Char
  | '"' => some '"'
  | '\\' => some '\\'
  | '/' => some '/'
  | 'b' => some '\x08'
  | 'f' => some '\x0c'
  | 'n' => some '\n'
  | 'r' => some '\r'
  | 't' => some '\t'
  | _ => none

/-- Reads a string behind its opening quote. Returns its pieces and what comes behind the closing
quote; `done` holds the pieces read before, in reverse order. -/
def pieces? (done : List Piece) : List Char → Option (List Piece × List Char)
  | [] => none
  | '"' :: rest => some (done.reverse, rest)
  | '\\' :: 'u' :: a :: b :: c :: d :: rest =>
    match unit? a b c d with
    | none => none
    | some n => pieces? (.unit n :: done) rest
  | '\\' :: c :: rest =>
    match unescape? c with
    | none => none
    | some c => pieces? (.char c :: done) rest
  | c :: rest =>
    if c = '\\' ∨ c.toNat < 0x20 then none else pieces? (.char c :: done) rest

/-- Whether a number is the first half of a surrogate pair. -/
def isHigh (n : Nat) : Bool :=
  0xD800 ≤ n && n ≤ 0xDBFF

/-- Whether a number is the second half of a surrogate pair. -/
def isLow (n : Nat) : Bool :=
  0xDC00 ≤ n && n ≤ 0xDFFF

/-- The text that pieces denote. Halves of surrogate pairs have to stand in pairs. -/
def join? : List Piece → Option (List Char)
  | [] => some []
  | .char c :: rest => (join? rest).map (c :: ·)
  | .unit n :: .unit m :: rest =>
    if isHigh n then
      if isLow m then
        (join? rest).map (Char.ofNat (0x10000 + (n - 0xD800) * 0x400 + (m - 0xDC00)) :: ·)
      else none
    else if isLow n then none
    else (join? (.unit m :: rest)).map (Char.ofNat n :: ·)
  | .unit n :: rest =>
    if isHigh n || isLow n then none else (join? rest).map (Char.ofNat n :: ·)

/-! ## Numbers -/

/-- Reads decimal digits, at least one. Returns them and what comes behind them. -/
def digits? (cs : List Char) : Option (List Char × List Char) :=
  match cs.takeWhile Char.isDigit with
  | [] => none
  | digits => some (digits, cs.dropWhile Char.isDigit)

/-- Reads the whole part of a number: a zero, or digits that do not begin with one. -/
def whole? : List Char → Option (Nat × List Char)
  | '0' :: rest => some (0, rest)
  | cs => (digits? cs).map fun (digits, rest) => (Text.decimal digits, rest)

/-- Passes the fraction of a number, if there is one. Returns whether there was one and what comes
behind it. -/
def fraction? : List Char → Option (Bool × List Char)
  | '.' :: rest => (digits? rest).map fun (_, rest) => (true, rest)
  | cs => some (false, cs)

/-- The digits of an exponent without the sign in front of them. -/
def unsigned : List Char → List Char
  | '+' :: rest | '-' :: rest => rest
  | cs => cs

/-- Passes the exponent of a number, if there is one. -/
def exponent? : List Char → Option (Bool × List Char)
  | 'e' :: rest | 'E' :: rest => (digits? (unsigned rest)).map fun (_, rest) => (true, rest)
  | cs => some (false, cs)

/-- Reads a number without its sign. Returns its value, if that is kept, and what comes behind it. -/
def magnitude? (cs : List Char) : Option (Option Nat × List Char) := do
  let (n, cs) ← whole? cs
  let (hasFraction, cs) ← fraction? cs
  let (hasExponent, cs) ← exponent? cs
  return (if hasFraction || hasExponent then none else some n, cs)

/-- Reads a number. -/
def number? : List Char → Option (Atom × List Char)
  | '-' :: cs => (magnitude? cs).map fun (n, cs) =>
    match n with
    | some (n + 1) => (.integer (Int.negSucc n), cs)
    | _ => (.inexact, cs)
  | cs => (magnitude? cs).map fun (n, cs) =>
    match n with
    | some n => (.integer n, cs)
    | none => (.inexact, cs)

/-! ## Cutting a text into tokens -/

/-- The characters that may stand between tokens. -/
def isSpace (c : Char) : Bool :=
  c == ' ' || c == '\t' || c == '\n' || c == '\r'

/-- Reads the token at the front of a text. Returns it and what comes behind it. -/
def token? : List Char → Option (Token × List Char)
  | '[' :: rest => some (.openArray, rest)
  | ']' :: rest => some (.closeArray, rest)
  | '\x7b' :: rest => some (.openObject, rest)
  | '\x7d' :: rest => some (.closeObject, rest)
  | ',' :: rest => some (.comma, rest)
  | ':' :: rest => some (.colon, rest)
  | 'n' :: 'u' :: 'l' :: 'l' :: rest => some (.atom .null, rest)
  | 't' :: 'r' :: 'u' :: 'e' :: rest => some (.atom (.bool true), rest)
  | 'f' :: 'a' :: 'l' :: 's' :: 'e' :: rest => some (.atom (.bool false), rest)
  | '"' :: rest => (pieces? [] rest).map fun (pieces, rest) =>
    (.atom (.string ((join? pieces).map String.ofList)), rest)
  | cs => (number? cs).map fun (a, rest) => (.atom a, rest)

/-- Cuts a text into tokens, in at most the given number of steps. Each step passes a blank or a
token, so that the text's length and one more step for its end are enough. -/
def scanFrom (done : List Token) : Nat → List Char → Option (List Token)
  | 0, _ => none
  | _ + 1, [] => some done.reverse
  | steps + 1, c :: cs =>
    if isSpace c then scanFrom done steps cs
    else
      match token? (c :: cs) with
      | none => none
      | some (t, rest) => scanFrom (t :: done) steps rest

/-- The tokens of a text. -/
def scan (text : String) : Option (List Token) :=
  let cs := text.toList
  scanFrom [] (cs.length + 1) cs

end ByteScan.Json

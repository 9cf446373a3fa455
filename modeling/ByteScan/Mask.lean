import ByteScan.Signature.Error

/-!
# Masks

A mask says of each position of a pattern whether it constrains a match. Its text has one character
for each position: `x` where the byte counts, `?` where any byte will do.
-/

namespace ByteScan

/-- Whether a position constrains a match. -/
inductive MaskFlag where
  | exact
  | wildcard
  deriving DecidableEq, Repr

namespace MaskFlag

/-- Whether the flag is `exact`. -/
def isExact : MaskFlag → Bool
  | exact => true
  | wildcard => false

/-- The character for a flag. -/
def char : MaskFlag → Char
  | exact => 'x'
  | wildcard => '?'

/-- The flag that a character stands for. -/
def ofChar? (c : Char) : Option MaskFlag :=
  if c = 'x' then some exact else if c = '?' then some wildcard else none

@[simp] theorem ofChar?_char (f : MaskFlag) : ofChar? f.char = some f := by
  cases f <;> rfl

end MaskFlag

/-- One flag for each position of a pattern. -/
structure Mask where
  flags : List MaskFlag
  deriving DecidableEq, Repr

namespace Mask

/-- Reads mask characters, the first of them standing at position `index`. The first character that
is no mask character is the fault. -/
def readFlags (index : Nat) : List Char → Except SignatureError (List MaskFlag)
  | [] => .ok []
  | c :: cs =>
    match MaskFlag.ofChar? c with
    | none => .error (.invalidMask index c)
    | some flag => (readFlags (index + 1) cs).map (flag :: ·)

/-- The mask that a text writes. -/
def ofText (text : String) : Except SignatureError Mask :=
  (readFlags 0 text.toList).map Mask.mk

/-- The mask of `n` positions that are all exact. -/
def allExact (n : Nat) : Mask :=
  ⟨List.replicate n .exact⟩

/-- The mask in its own characters. -/
def text (m : Mask) : String :=
  String.ofList (m.flags.map MaskFlag.char)

/-- Whether the mask has this position and it is exact. -/
def isExact (m : Mask) (index : Nat) : Bool :=
  m.flags[index]?.any MaskFlag.isExact

/-- The first exact position. -/
def firstExact? (m : Mask) : Option Nat :=
  m.flags.findIdx? MaskFlag.isExact

/-- How many positions are exact. -/
def exactCount (m : Mask) : Nat :=
  m.flags.countP MaskFlag.isExact

/-- How many positions are wildcards. -/
def wildcardCount (m : Mask) : Nat :=
  m.flags.length - m.exactCount

end Mask

end ByteScan

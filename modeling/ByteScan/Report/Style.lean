/-!
# Styled text

A piece of text is styled by an opening sequence in front of it and a reset behind it. A reset inside
the piece would end the style too early, so the opening sequence is repeated behind it.
-/

namespace ByteScan

/-- A way to set a piece of text apart. -/
inductive Style where
  | bold
  | dimmed
  | red
  | green
  | yellow
  | blue
  | cyan
  deriving DecidableEq, Repr

namespace Style

/-- The number of a style in its opening sequence. -/
def code : Style → Nat
  | bold => 1
  | dimmed => 2
  | red => 31
  | green => 32
  | yellow => 33
  | blue => 34
  | cyan => 36

/-- The sequence that begins a style. -/
def opening (s : Style) : String :=
  s!"\x1b[{s.code}m"

/-- The sequence that ends every style. -/
def reset : String := "\x1b[0m"

/-- The text with `opening` inserted behind each reset in it. -/
def reopen (opening : List Char) : List Char → List Char
  | '\x1b' :: '[' :: '0' :: 'm' :: rest => reset.toList ++ opening ++ reopen opening rest
  | c :: rest => c :: reopen opening rest
  | [] => []

/-- The text in a style, or as it is if there is to be no colour. Text without characters is styled
like any other. -/
def paint (color : Bool) (s : Style) (text : String) : String :=
  if color then s.opening ++ String.ofList (reopen s.opening.toList text.toList) ++ reset else text

end Style

end ByteScan

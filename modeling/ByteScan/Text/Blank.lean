/-!
# Blank characters

The characters that separate words, and the two operations that depend on them: removing blanks at
the ends of a text (`trim`) and cutting a text into its words (`fields`).

Both work on lists of characters, so that what they keep and what they drop can be stated with the
library's lemmas on `dropWhile` and `splitOnP`.
-/

namespace ByteScan.Text

/-- The characters with the Unicode property `White_Space`. There are 25 of them; `Char.isWhitespace`
knows only four. -/
def isBlank (c : Char) : Bool :=
  let n := c.toNat
  (0x09 ≤ n && n ≤ 0x0D) || n == 0x20 || n == 0x85 || n == 0xA0 || n == 0x1680 ||
  (0x2000 ≤ n && n ≤ 0x200A) || n == 0x2028 || n == 0x2029 || n == 0x202F || n == 0x205F ||
  n == 0x3000

/-- The text without its blanks at the front and at the back. -/
def trim (cs : List Char) : List Char :=
  ((cs.dropWhile isBlank).reverse.dropWhile isBlank).reverse

/-- The words of a text: its maximal runs of characters that are not blank, in order. -/
def fields (cs : List Char) : List (List Char) :=
  (cs.splitOnP isBlank).filter (!·.isEmpty)

end ByteScan.Text

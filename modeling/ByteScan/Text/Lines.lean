/-!
# Lines of a text

A line ends at a line feed. One carriage return directly before that line feed belongs to the line's
end and is dropped with it. Text after the last line feed is a line of its own, and keeps a carriage
return at its end.
-/

namespace ByteScan.Text

/-- A line that a line feed ended, without the carriage return that may stand before the feed. -/
def dropCarriageReturn (line : List Char) : List Char :=
  if line.getLast? = some '\r' then line.dropLast else line

/-- The lines of a text, without their ends. The empty text has no line, and a text that ends with a
line feed has none after it. -/
def lines (cs : List Char) : List (List Char) :=
  let pieces := cs.splitOn '\n'
  let closed := pieces.dropLast.map dropCarriageReturn
  match pieces.getLast? with
  | none | some [] => closed
  | some last => closed ++ [last]

end ByteScan.Text

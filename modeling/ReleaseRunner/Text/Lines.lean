/-!
# Lines

A text is cut into lines at every line boundary of the character database. A carriage return
and the line feed after it are one boundary, and a boundary at the end starts no new line.
-/

namespace ReleaseRunner.Text

/-- A character that ends a line. -/
def isLineEnd (c : Char) : Bool :=
  let n := c.toNat
  (0x0a ≤ n && n ≤ 0x0d) || (0x1c ≤ n && n ≤ 0x1e) || n == 0x85 || n == 0x2028 || n == 0x2029

/-- The lines of a text, given the line that is open (reversed, or none at a line's start). -/
def linesFrom : Option (List Char) → List Char → List (List Char)
  | none, [] => []
  | some line, [] => [line.reverse]
  | line, '\r' :: '\n' :: rest => (line.getD []).reverse :: linesFrom none rest
  | line, c :: rest =>
    if isLineEnd c then (line.getD []).reverse :: linesFrom none rest
    else linesFrom (some (c :: line.getD [])) rest

/-- The lines of a text, without what ends them. -/
def lines (s : String) : List String :=
  (linesFrom none s.toList).map String.ofList

end ReleaseRunner.Text

/-!
# Blank characters

The space characters of the character database (with the four separators `U+001C` to
`U+001F`), and the removal of blanks around a text. A name, a version or a command counts as
missing when nothing is left after that removal.
-/

namespace ReleaseRunner.Text

/-- A character that takes room and shows nothing. -/
def isBlank (c : Char) : Bool :=
  let n := c.toNat
  (0x09 ≤ n && n ≤ 0x0d) || (0x1c ≤ n && n ≤ 0x20) || n == 0x85 || n == 0xa0 || n == 0x1680 ||
  (0x2000 ≤ n && n ≤ 0x200a) || n == 0x2028 || n == 0x2029 || n == 0x202f || n == 0x205f ||
  n == 0x3000

/-- The text without the blanks at its end. -/
def dropBlankEnd (s : List Char) : List Char :=
  s.foldr (fun c rest => if rest.isEmpty && isBlank c then [] else c :: rest) []

/-- The text without the blanks at its two ends. -/
def stripped (s : List Char) : List Char :=
  dropBlankEnd (s.dropWhile isBlank)

/-- The text without the blanks at its two ends. -/
def strip (s : String) : String :=
  String.ofList (stripped s.toList)

/-- Nothing is left of the text once its blanks are gone. -/
def isBlankText (s : String) : Bool :=
  s.toList.all isBlank

end ReleaseRunner.Text

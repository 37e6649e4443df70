import ReleaseRunner.Json.Value
import ReleaseRunner.Number.Decimal
import ReleaseRunner.Text.Quoted

/-!
# Writing JSON

Two layouts: on one line, or with every item on a line of its own, indented by two blanks for
each container around it. Characters beyond ASCII stand for themselves; only the quote, the
backslash and the control characters are escaped. Empty containers stay on one line.
-/

namespace ReleaseRunner.Json

open ReleaseRunner.Number ReleaseRunner.Text

/-- A character of a text as it is written. -/
def writtenChar (c : Char) : List Char :=
  if c == '"' then ['\\', '"']
  else if c == '\\' then ['\\', '\\']
  else if c == '\n' then ['\\', 'n']
  else if c == '\r' then ['\\', 'r']
  else if c == '\t' then ['\\', 't']
  else if c == '\x08' then ['\\', 'b']
  else if c == '\x0c' then ['\\', 'f']
  else if c.toNat < 0x20 then '\\' :: 'u' :: hexDigits 4 c.toNat
  else [c]

/-- A text between quotes. -/
def writtenText (s : String) : List Char :=
  '"' :: s.toList.flatMap writtenChar ++ ['"']

/-- A number with a fraction. The three words are those the reader knows. -/
def writtenFloat : Binary64 → List Char
  | .nan => "NaN".toList
  | .infinite false => "Infinity".toList
  | .infinite true => "-Infinity".toList
  | x => x.shortest.toList

/-- What stands between the start of a container or an item and the next item. -/
def lineBreak : Option Nat → List Char
  | none => []
  | some level => '\n' :: List.replicate (2 * level) ' '

/-- The blank after a comma where items share a line. -/
def itemGap (level : Option Nat) : List Char :=
  if level.isNone then [' '] else lineBreak level

mutual

/-- A value, within so many containers where the layout has lines. -/
def written (level : Option Nat) : Json → List Char
  | null => "null".toList
  | bool b => (if b then "true" else "false").toList
  | int n => (toString n).toList
  | float x => writtenFloat x
  | text s => writtenText s
  | array [] => "[]".toList
  | array (item :: items) =>
    let inner := level.map (· + 1)
    '[' :: lineBreak inner ++ written inner item ++ writtenItems inner items ++
      lineBreak level ++ [']']
  | object [] => ['\x7b', '\x7d']
  | object ((key, value) :: members) =>
    let inner := level.map (· + 1)
    '\x7b' :: lineBreak inner ++ writtenText key ++ ':' :: ' ' :: written inner value ++
      writtenMembers inner members ++ lineBreak level ++ ['\x7d']

/-- The items after the first one. -/
def writtenItems (level : Option Nat) : List Json → List Char
  | [] => []
  | item :: items => ',' :: itemGap level ++ written level item ++ writtenItems level items

/-- The members after the first one. -/
def writtenMembers (level : Option Nat) : List (String × Json) → List Char
  | [] => []
  | (key, value) :: members =>
    ',' :: itemGap level ++ writtenText key ++ ':' :: ' ' :: written level value ++
      writtenMembers level members

end

/-- The value on one line. -/
def compact (json : Json) : String :=
  String.ofList (written none json)

/-- The value with an item a line. -/
def pretty (json : Json) : String :=
  String.ofList (written (some 0) json)

end ReleaseRunner.Json

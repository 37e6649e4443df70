import ReleaseRunner.Json.Value
import ReleaseRunner.Number.Decimal
import ReleaseRunner.Number.Integer
import ReleaseRunner.Text.Quoted

/-!
# Values in messages

How a value looks inside a message: texts within containers are quoted, the three constants
have capitals, and a text that is the whole value stands as it is. A value with a whole number
that is too long cannot be written at all.
-/

namespace ReleaseRunner.Json

open ReleaseRunner.Number ReleaseRunner.Text

mutual

/-- Every whole number in the value is short enough to be written. -/
def isWritable : Json → Bool
  | int n => n.natAbs < tenTo digitLimit
  | array items => areWritable items
  | object members => membersWritable members
  | _ => true

/-- The items of an array can be written. -/
def areWritable : List Json → Bool
  | [] => true
  | item :: items => isWritable item && areWritable items

/-- The values of members can be written. -/
def membersWritable : List (String × Json) → Bool
  | [] => true
  | (_, value) :: members => isWritable value && membersWritable members

end

mutual

/-- A value with its limits visible. -/
def shown : Json → List Char
  | null => "None".toList
  | bool b => (if b then "True" else "False").toList
  | int n => (toString n).toList
  | float x => x.shortest.toList
  | text s => (quoted s).toList
  | array items => '[' :: shownItems items ++ [']']
  | object members => '\x7b' :: shownMembers members ++ ['\x7d']

/-- The items of an array with commas between them. -/
def shownItems : List Json → List Char
  | [] => []
  | [item] => shown item
  | item :: items => shown item ++ ',' :: ' ' :: shownItems items

/-- The members of an object with commas between them. -/
def shownMembers : List (String × Json) → List Char
  | [] => []
  | [(key, value)] => (quoted key).toList ++ ':' :: ' ' :: shown value
  | (key, value) :: members =>
    (quoted key).toList ++ ':' :: ' ' :: (shown value ++ ',' :: ' ' :: shownMembers members)

end

/-- A value as it stands in a message. -/
def plain : Json → List Char
  | text s => s.toList
  | json => shown json

end ReleaseRunner.Json

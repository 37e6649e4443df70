import ReleaseRunner.Number.Binary64

/-!
# JSON values

Whole numbers and numbers with a fraction or an exponent are kept apart, and the members of an
object keep their order. A text may repeat a key, and the members are kept as they are
written; the last one of a key counts. `Json.settled` leaves one member for each key, in the
first place of the key and with its last value.
-/

namespace ReleaseRunner

open ReleaseRunner.Number

/-- A JSON value. -/
inductive Json where
  | null
  | bool (value : Bool)
  | int (value : Int)
  | float (value : Binary64)
  | text (value : String)
  | array (items : List Json)
  | object (members : List (String × Json))

/-- Members of an object, in order. -/
abbrev Members := List (String × Json)

namespace Json

/-- The members with `key` bound to `value`: in its place if it is there, else at the end. -/
def member {α : Type} (members : List (String × α)) (key : String) (value : α) :
    List (String × α) :=
  match members with
  | [] => [(key, value)]
  | (k, v) :: rest => if k = key then (k, value) :: rest else (k, v) :: member rest key value

/-- The members with all of a list bound in turn. -/
def withMembers {α : Type} (members new : List (String × α)) : List (String × α) :=
  new.foldl (fun ms (k, v) => member ms k v) members

/-- The value bound to a key, which is the last one. -/
def lookup {α : Type} (members : List (String × α)) (key : String) : Option α :=
  (members.reverse.find? (·.1 == key)).map (·.2)

mutual

/-- The value with one member for each key, in all its parts. -/
def settled : Json → Json
  | array items => array (settledItems items)
  | object members => object (settledMembers [] members)
  | json => json

/-- The items of an array, settled. -/
def settledItems : List Json → List Json
  | [] => []
  | item :: items => settled item :: settledItems items

/-- Members with further ones bound in turn, settled. -/
def settledMembers (bound : Members) : Members → Members
  | [] => bound
  | (key, value) :: members => settledMembers (member bound key (settled value)) members

end

/-- The value of a member of an object. -/
def field? (json : Json) (key : String) : Option Json :=
  match json with
  | object members => lookup members key
  | _ => none

/-- The text of a text value. -/
def text? : Json → Option String
  | text s => some s
  | _ => none

/-- The items of an array. -/
def items? : Json → Option (List Json)
  | array items => some items
  | _ => none

/-- The members of an object. -/
def members? : Json → Option Members
  | object members => some members
  | _ => none

end Json

end ReleaseRunner

import ReleaseRunner.Config.Fault
import ReleaseRunner.Json.Value
import ReleaseRunner.Text.Blank

/-!
# Reading documents

Readers from JSON values to the values of the configuration. A reader does not stop at the
first fault: the parts of a record are read side by side and their faults collected in the
order of its fields, and unknown keys come last. Texts stand in for truth values and numbers.
-/

namespace ReleaseRunner.Config

open ReleaseRunner.Number ReleaseRunner.Text

/-- A value, or the faults that keep it from being one. -/
abbrev Checked (α : Type) := Except (List Fault) α

/-- What reads a value from a document. -/
abbrev Reader (α : Type) := Json → Checked α

/-- The breach of a rule at the top of a value. -/
def breach {α : Type} (rule : Rule) : Checked α := .error [⟨[], rule⟩]

/-- A function and its argument read side by side. -/
def along {α β : Type} (x : Checked α) (f : Checked (α → β)) : Checked β :=
  match f, x with
  | .ok f, .ok x => .ok (f x)
  | .ok _, .error faults => .error faults
  | .error faults, .ok _ => .error faults
  | .error faults, .error more => .error (faults ++ more)

/-- A reading within a place of the document. -/
def within {α : Type} (place : Place) (x : Checked α) : Checked α :=
  x.mapError (·.map fun fault => { fault with path := place :: fault.path })

/-- Readings of a list, side by side. -/
def allOf {α : Type} : List (Checked α) → Checked (List α)
  | [] => .ok []
  | x :: xs => along (allOf xs) (along x (.ok List.cons))

/-! ## Values -/

/-- A text, of which no other value is a form. -/
def text : Reader String
  | .text s => .ok s
  | _ => breach .isText

/-- The texts for true and false, in small letters. -/
def truthWords : List (String × Bool) :=
  [("0", false), ("f", false), ("n", false), ("no", false), ("off", false), ("false", false),
    ("1", true), ("t", true), ("y", true), ("on", true), ("yes", true), ("true", true)]

/-- The truth value that a text writes, in letters of either case. -/
def truthOfText (s : String) : Checked Bool :=
  match truthWords.lookup (s.map Char.toLower) with
  | some b => .ok b
  | none => breach .readsAsTruth

/-- The truth value that a whole number stands for. A number of nineteen digits or more stands
for none and is of another kind. -/
def truthOfInt (n : Int) : Checked Bool :=
  if n = 0 then .ok false
  else if n = 1 then .ok true
  else if n.natAbs < tenTo 18 then breach .readsAsTruth
  else breach .isTruth

/-- The truth value of a number without a fraction, within the range of words of 64 bits. -/
def truthOfFloat (x : Binary64) : Checked Bool :=
  match x.toInt? with
  | some n =>
    if n = 0 then .ok false
    else if n = 1 then .ok true
    else if n.natAbs < twoTo 63 then breach .readsAsTruth
    else breach .isTruth
  | none => breach .isTruth

/-- A truth value. -/
def truth : Reader Bool
  | .bool b => .ok b
  | .int n => truthOfInt n
  | .float x => truthOfFloat x
  | .text s => truthOfText s
  | _ => breach .isTruth

/-- A blank around the text of a number. -/
def isNumberGap (c : Char) : Bool :=
  isBlank c && !(0x1c ≤ c.toNat && c.toNat ≤ 0x1f)

/-- The exponent that ends the text of a number, nought where there is none. -/
def exponentOfText? : List Char → Option Int
  | [] => some 0
  | mark :: s =>
    if mark == 'e' || mark == 'E' then
      let (negative, digits) := match s with
        | '-' :: s => (true, s)
        | '+' :: s => (false, s)
        | s => (false, s)
      if digits.isEmpty || !digits.all Char.isDigit then none
      else
        let n : Int := digitsValue digits
        some (if negative then -n else n)
    else none
where
  digitsValue (digits : List Char) : Nat :=
    digits.foldl (fun n d => 10 * n + (d.toNat - 0x30)) 0

/-- The number that a text without a sign writes: a word, or digits with a point among them or
at either end. -/
def unsignedOfText? (negative : Bool) (s : List Char) : Option Binary64 :=
  let word := String.ofList (s.map Char.toLower)
  if word == "inf" || word == "infinity" then some (.infinite negative)
  else if word == "nan" then some .nan
  else
    let whole := s.takeWhile Char.isDigit
    let rest := s.dropWhile Char.isDigit
    let (fraction, rest) := match rest with
      | '.' :: rest => (rest.takeWhile Char.isDigit, rest.dropWhile Char.isDigit)
      | rest => ([], rest)
    let digits := whole ++ fraction
    if digits.isEmpty then none
    else (exponentOfText? rest).map fun e =>
      Binary64.ofDecimal negative (exponentOfText?.digitsValue digits) (e - fraction.length)

/-- The number that a text writes. -/
def numberOfText? : List Char → Option Binary64
  | '-' :: s => unsignedOfText? true s
  | '+' :: s => unsignedOfText? false s
  | s => unsignedOfText? false s

/-- The text without underscores, if it has some and each stands between other characters. -/
def withoutUnderscores? (s : List Char) : Option (List Char) :=
  if !s.contains '_' || s.head? == some '_' || s.getLast? == some '_' ||
    (s.zip s.tail).contains ('_', '_') then none
  else some (s.filter (· != '_'))

/-- The text without the blanks around it. -/
def trimmed (s : List Char) : List Char :=
  ((s.dropWhile isNumberGap).reverse.dropWhile isNumberGap).reverse

/-- A number. A text with underscores is read without them, but then as it stands. -/
def number : Reader Binary64
  | .int n => .ok (.ofInt n)
  | .float x => .ok x
  | .bool b => .ok (.ofInt (if b then 1 else 0))
  | .text s =>
    match numberOfText? (trimmed s.toList) with
    | some x => .ok x
    | none =>
      match (withoutUnderscores? s.toList).bind numberOfText? with
      | some x => .ok x
      | none => breach .readsAsNumber
  | _ => breach .isNumber

/-- A number above nought. -/
def positive : Reader Binary64 := fun json => do
  let x ← number json
  if x.isPositive then .ok x else breach .isPositive

/-- A value that may be missing by being null. -/
def nullable {α : Type} (read : Reader α) : Reader (Option α)
  | .null => .ok none
  | json => (read json).map some

/-- A list, its items side by side. -/
def list {α : Type} (read : Reader α) : Reader (List α)
  | .array items => allOf (items.mapIdx fun i item => within (.index i) (read item))
  | _ => breach .isList

/-- A mapping from keys to values of one kind. -/
def mapping {α : Type} (read : Reader α) : Reader (List (String × α))
  | .object members =>
    (allOf (members.map fun (key, value) =>
      (within (.key key) (read value)).map (key, ·))).map (Json.withMembers [])
  | _ => breach .isMapping

/-- Any value. -/
def anything : Reader Json := fun json => .ok json.settled

/-! ## Records -/

/-- A record, from its members. -/
def record {α : Type} (read : Members → Checked α) : Reader α
  | .object members => read members
  | _ => breach .isModel

/-- A member that has to be there. -/
def required {α : Type} (members : Members) (key : String) (read : Reader α) : Checked α :=
  within (.key key) <|
    match Json.lookup members key with
    | some json => read json
    | none => breach .isPresent

/-- A member with a value for when it is missing. -/
def optional {α : Type} (members : Members) (key : String) (missing : α) (read : Reader α) :
    Checked α :=
  match Json.lookup members key with
  | some json => within (.key key) (read json)
  | none => .ok missing

/-- A reading to which every member beyond the known ones is a fault. -/
def andNoOthers {α : Type} (members : Members) (known : List String) (x : Checked α) :
    Checked α :=
  let others := (members.filter fun (key, _) => !known.contains key).map fun (key, _) =>
    (⟨[.key key], .isKnown⟩ : Fault)
  if others.isEmpty then x
  else along (.error others : Checked Unit) (x.map fun a _ => a)

end ReleaseRunner.Config

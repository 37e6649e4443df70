import ReleaseRunner.Text.Digit
import ReleaseRunner.Text.Search

/-!
# Flags among arguments

An argument names a flag when it begins with a hyphen, unless it looks like a negative number
or holds a blank. A long name may be cut short as long as it stands for one flag only, and a
value may follow its name after an equals sign. Short names may follow each other after one
hyphen. After two hyphens alone every argument is plain.
-/

namespace ReleaseRunner.CommandLine

open ReleaseRunner.Text

/-- A flag: its names, whether it takes a value, and what it stands for. -/
structure Flag (α : Type) where
  names : List String
  takesValue : Bool
  meaning : α

/-- The names of a flag, as errors show it. -/
def Flag.title {α : Type} (flag : Flag α) : String :=
  joined "/" flag.names

/-- What stands behind the name of a flag within its argument: nothing, a value after an equals
sign, or further text right after a short name. -/
inductive Attached where
  | nothing
  | value (text : List Char)
  | tail (text : List Char)
deriving Repr, DecidableEq

/-- What an argument is. -/
inductive Argument (α : Type) where
  | plain (text : String)
  | dashes
  | flag (flag : Flag α) (attached : Attached)
  | unknown (text : String)

/-- The flags by each of their names. -/
def namesOf {α : Type} (flags : List (Flag α)) : List (String × Flag α) :=
  flags.flatMap fun flag => flag.names.map (·, flag)

/-- The flag of a full name. -/
def flagNamed? {α : Type} (flags : List (Flag α)) (name : List Char) : Option (Flag α) :=
  ((namesOf flags).find? (·.1.toList == name)).map (·.2)

/-- The text in front of the first equals sign and the text after it. -/
def cutAtEquals (s : List Char) : List Char × Attached :=
  match s.dropWhile (· != '=') with
  | _ :: value => (s.takeWhile (· != '='), .value value)
  | [] => (s, .nothing)

/-- The names that a text may stand for, with what is attached to them. A text of one hyphen
is a short name and what follows it. -/
def candidates {α : Type} (flags : List (Flag α)) (s : List Char) :
    List (String × Flag α × Attached) :=
  let beginsWith (start : List Char) (name : String) := start.isPrefixOf name.toList
  if "--".toList.isPrefixOf s then
    let (start, attached) := cutAtEquals s
    (namesOf flags).filterMap fun (name, flag) =>
      if beginsWith start name then some (name, flag, attached) else none
  else
    (namesOf flags).filterMap fun (name, flag) =>
      if name.toList == s.take 2 then some (name, flag, .tail (s.drop 2))
      else if beginsWith s name then some (name, flag, .nothing)
      else none

/-- The text looks like a negative number, with or without a fraction. A line break may follow
it. -/
def looksNegative (s : List Char) : Bool :=
  match s with
  | '-' :: s =>
    let s := if s.getLast? == some '\n' then s.dropLast else s
    let rest := s.dropWhile isDigit
    match rest with
    | [] => !s.isEmpty
    | '.' :: fraction => !fraction.isEmpty && fraction.all isDigit
    | _ => false
  | _ => false

/-- What an argument is, unless its name is cut too short. -/
def classify {α : Type} (flags : List (Flag α)) (text : String) :
    Except String (Argument α) :=
  let s := text.toList
  let (name, attached) := cutAtEquals s
  if s.head? != some '-' then .ok (.plain text)
  else match flagNamed? flags s with
    | some flag => .ok (.flag flag .nothing)
    | none =>
      if s.length = 1 then .ok (.plain text)
      else match if attached = .nothing then none else flagNamed? flags name with
        | some flag => .ok (.flag flag attached)
        | none =>
          match candidates flags s with
          | [(_, flag, attached)] => .ok (.flag flag attached)
          | [] =>
            if looksNegative s || s.contains ' ' then .ok (.plain text)
            else .ok (.unknown text)
          | several =>
            let names := joined ", " (several.map (·.1))
            .error s!"ambiguous option: {text} could match {names}"

/-- What each argument is. -/
def classifyAll {α : Type} (flags : List (Flag α)) :
    List String → Except String (List (Argument α))
  | [] => .ok []
  | text :: rest =>
    if text == "--" then .ok (.dashes :: rest.map .plain)
    else do
      let first ← classify flags text
      return first :: (← classifyAll flags rest)

end ReleaseRunner.CommandLine

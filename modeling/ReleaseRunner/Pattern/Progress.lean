import ReleaseRunner.Pattern.Basic

/-!
# The reader's progress

Reading a pattern goes through its text from left to right. What has been read so far decides
what may follow: which groups there are, how wide they are, and whether the reader is within a
look behind. This module holds that state and the smallest steps through the text.
-/

namespace ReleaseRunner.Pattern

open ReleaseRunner.Text

/-- Why a text is no pattern. -/
inductive Error where
  | malformed
  | tooManyRounds
deriving Repr, DecidableEq

/-- What a repetition mark makes of the part before it. -/
inductive Repeatable where
  | yes
  | anchor
  | repetition
deriving Repr, DecidableEq

/-- A part of a sequence. -/
structure Part where
  pattern : Pattern
  repeatable : Repeatable := .yes

/-- What the reader knows: the text ahead, the groups opened so far, the widths of those
closed, the names of groups, the group at which the innermost look behind began, and the
groups that conditions refer to. -/
structure Progress where
  rest : List Char
  groups : Nat
  widths : List (Nat × Width) := []
  names : List (List Char × Nat) := []
  lookBehind : Option Nat := none
  conditions : List Nat := []

/-- A step of the reader. -/
abbrev Step := StateT Progress (Except Error)

/-- The text is no pattern. -/
def malformed {α : Type} : Step α := throw .malformed

/-- The next character, left in place. -/
def peek : Step (Option Char) := return (← get).rest.head?

/-- The next character, taken. -/
def take? : Step (Option Char) := do
  let p ← get
  match p.rest with
  | [] => return none
  | c :: rest =>
    set { p with rest := rest }
    return some c

/-- The next character, which has to be there. -/
def take : Step Char := do
  match ← take? with
  | some c => return c
  | none => malformed

/-- Takes the given character if it is next. -/
def accept (c : Char) : Step Bool := do
  if (← peek) == some c then
    discard take?
    return true
  return false

/-- The given character has to be next. -/
def expect (c : Char) : Step Unit := do
  unless ← accept c do malformed

/-- The characters of a class at the start of the text, so many at most. -/
def takeWhile (holds : Char → Bool) (limit : Option Nat := none) : Step (List Char) :=
  modifyGet fun p =>
    let run := p.rest.takeWhile holds
    let run := match limit with
      | some n => run.take n
      | none => run
    (run, { p with rest := p.rest.drop run.length })

/-- The nonempty text before the given character, which is taken as well. -/
def takeUntil (c : Char) : Step (List Char) := do
  let name ← takeWhile (· != c)
  expect c
  if name.isEmpty then malformed
  return name

/-- The value of digits in a base up to sixteen. -/
def digitsIn (base : Nat) (digits : List Char) : Nat :=
  digits.foldl (fun n d =>
    base * n + (if d.isDigit then d.toNat - 0x30 else d.toLower.toNat - 0x57)) 0

/-- The width of a group that is closed already. -/
def Progress.width? (p : Progress) (group : Nat) : Option Width :=
  (p.widths.find? (·.1 == group)).map (·.2)

/-- A reference has to be to a group that is closed, and within a look behind to one that was
opened before it. -/
def checkReference (group : Nat) : Step Unit := do
  let p ← get
  if (p.width? group).isNone then malformed
  match p.lookBehind with
  | some first => if first ≤ group then malformed
  | none => pure ()

end ReleaseRunner.Pattern

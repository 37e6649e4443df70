import ReleaseRunner.Pattern.Basic

/-!
# Matching

A pattern is run against a text by following its alternatives in order and taking the first
way that reaches the end of the pattern. Each part is given what is to be done after it, so a
later failure comes back to the choices made before. Repetition takes another round only where
the round before it moved on; so, beyond the rounds that are required, there are at most as
many as characters are left, and one that stays in place.
-/

namespace ReleaseRunner.Pattern

open ReleaseRunner.Text

/-- A place in a text, with the groups captured so far. The text before the place is kept
backwards. -/
structure Place where
  before : List Char
  after : List Char
  groups : List (Nat × List Char)

/-- What remains to be done from a place. -/
abbrev Goal := Place → Option Place

/-- The text captured by a group. -/
def Place.group? (place : Place) (index : Nat) : Option (List Char) :=
  (place.groups.find? (·.1 == index)).map (·.2)

/-- The place with a group captured: what was read since `start`, a place before it. -/
def Place.capture (place start : Place) (index : Nat) : Place :=
  let text := (place.before.take (place.before.length - start.before.length)).reverse
  { place with groups := (index, text) :: place.groups }

/-- The place after a character of the set. -/
def Place.step? (place : Place) (holds : Char → Bool) : Option Place :=
  match place.after with
  | c :: rest =>
    if holds c then some { place with before := c :: place.before, after := rest } else none
  | [] => none

/-- The place after a given text, its characters compared by `same`. -/
def Place.past? (place : Place) (same : Char → Char → Bool) : List Char → Option Place
  | [] => some place
  | c :: rest =>
    match place.step? (same c) with
    | some place => place.past? same rest
    | none => none

/-- The place so many characters back. -/
def Place.back? : Nat → Place → Option Place
  | 0, place => some place
  | n + 1, place =>
    match place.before with
    | c :: rest => Place.back? n { place with before := rest, after := c :: place.after }
    | [] => none

/-- One side of the place is within a word and the other is not. -/
def Place.atWordEdge (place : Place) (ascii : Bool) : Bool :=
  let word (side : List Char) := side.head?.any (Kind.word.holds ascii ·)
  word place.before != word place.after

/-- The anchor holds at the place. -/
def Anchor.holds (place : Place) : Anchor → Bool
  | .textStart => place.before.isEmpty
  | .textEnd => place.after.isEmpty
  | .lineStart => place.before.isEmpty || place.before.head? == some '\n'
  | .lineEnd => place.after.isEmpty || place.after.head? == some '\n'
  | .beforeLastBreak => place.after.isEmpty || place.after == ['\n']
  | .wordEdge ascii => place.atWordEdge ascii
  | .noWordEdge ascii => !place.atWordEdge ascii

/-- So many rounds, and then the goal. -/
def rounds (body : Goal → Goal) : Nat → Goal → Goal
  | 0, goal => goal
  | n + 1, goal => body (rounds body n goal)

/-- There is room for another round under the limit. -/
def roomFor (most : Option Nat) : Bool :=
  most.all (0 < ·)

/-- Rounds beyond the required ones, as many as possible first. `last` is where the round
before began. -/
def greedyRounds (body : Goal → Goal) : Nat → Option Nat → Option Nat → Goal → Goal
  | 0, _, _, goal => goal
  | fuel + 1, most, last, goal => fun place =>
    let here := place.after.length
    if roomFor most && last != some here then
      match body (greedyRounds body fuel (most.map (· - 1)) (some here) goal) place with
      | some found => some found
      | none => goal place
    else goal place

/-- Rounds beyond the required ones, as few as possible first. -/
def lazyRounds (body : Goal → Goal) : Nat → Option Nat → Option Nat → Goal → Goal
  | 0, _, _, goal => goal
  | fuel + 1, most, last, goal => fun place =>
    match goal place with
    | some found => some found
    | none =>
      let here := place.after.length
      if roomFor most && last != some here then
        body (lazyRounds body fuel (most.map (· - 1)) (some here) goal) place
      else none

/-- Rounds beyond the required ones, each taken once for all. -/
def possessiveRounds (body : Goal → Goal) : Nat → Option Nat → Option Nat → Place → Place
  | 0, _, _, place => place
  | fuel + 1, most, last, place =>
    let here := place.after.length
    if roomFor most && last != some here then
      match body some place with
      | some place => possessiveRounds body fuel (most.map (· - 1)) (some here) place
      | none => place
    else place

/-- Required rounds, each taken once for all. -/
def requiredRounds (body : Goal → Goal) : Nat → Place → Option Place
  | 0, place => some place
  | n + 1, place => (body some place).bind (requiredRounds body n)

/-- Runs a pattern from a place towards a goal. -/
def run : Pattern → Goal → Goal
  | nothing, goal => goal
  | char set caseless ascii, goal => fun place =>
    (place.step? (set.holds caseless ascii)).bind goal
  | seq a b, goal => run a (run b goal)
  | either a b, goal => fun place =>
    match run a goal place with
    | some found => some found
    | none => run b goal place
  | repeated body least most appetite, goal => fun place =>
    let fuel := place.after.length + 2
    let most := most.map (· - least)
    match appetite with
    | .greedy => rounds (run body) least (greedyRounds (run body) fuel most none goal) place
    | .lazy => rounds (run body) least (lazyRounds (run body) fuel most none goal) place
    | .possessive =>
      (requiredRounds (run body) least place).bind fun place =>
        goal (possessiveRounds (run body) fuel most none place)
  | capture index body, goal => fun start =>
    run body (fun place => goal (place.capture start index)) start
  | atomic body, goal => fun place => (run body some place).bind goal
  | ahead wanted body, goal => fun place =>
    match run body some place with
    | some found => if wanted then goal { place with groups := found.groups } else none
    | none => if wanted then none else goal place
  | behind wanted width body, goal => fun place =>
    match (Place.back? width place).bind (run body some) with
    | some found => if wanted then goal { place with groups := found.groups } else none
    | none => if wanted then none else goal place
  | again index caseless ascii, goal => fun place =>
    let same (a b : Char) := a == b || (caseless && smallUnder ascii a == smallUnder ascii b)
    (place.group? index).bind fun text => (place.past? same text).bind goal
  | given index yes no, goal => fun place =>
    if (place.group? index).isSome then run yes goal place else run no goal place
  | anchor a, goal => fun place => if a.holds place then goal place else none

/-- The groups captured where the pattern matches from the start of the text: what each of
`count` groups holds, counted from one. -/
def match? (pattern : Pattern) (count : Nat) (text : List Char) :
    Option (List (Option (List Char))) :=
  (run pattern some ⟨[], text, []⟩).map fun place =>
    (List.range count).map fun i => place.group? (i + 1)

end ReleaseRunner.Pattern

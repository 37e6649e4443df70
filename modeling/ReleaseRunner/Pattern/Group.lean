import ReleaseRunner.Pattern.Progress

/-!
# Repetition and groups

The limits and the appetite of a repetition, the modes that a group may be opened with, its
number, name and width, and what a look behind demands of its body.
-/

namespace ReleaseRunner.Pattern

open ReleaseRunner.Text

/-! ## Repetition -/

/-- The number of rounds that is too large for any repetition. -/
def roundLimit : Nat := 4294967295

/-- The limits between braces, the opening brace taken; `none` and nothing else taken where the
text is no pair of limits. -/
def limits? : Step (Option (Nat × Option Nat)) := do
  let start ← get
  if (← peek) == some '\x7d' then return none
  let low ← takeWhile Char.isDigit
  let high ← if ← accept ',' then takeWhile Char.isDigit else pure low
  unless ← accept '\x7d' do
    set start
    return none
  let least := digitsIn 10 low
  if roundLimit ≤ least then throw .tooManyRounds
  if high.isEmpty then return some (least, none)
  let most := digitsIn 10 high
  if roundLimit ≤ most then throw .tooManyRounds
  if most < least then malformed
  return some (least, some most)

/-- The limits of a repetition mark. -/
def markLimits? : Char → Step (Option (Nat × Option Nat))
  | '?' => return some (0, some 1)
  | '*' => return some (0, none)
  | '+' => return some (1, none)
  | _ => limits?

/-- The appetite of a repetition, which one character after its mark may give. -/
def markAppetite : Step Appetite := do
  if ← accept '?' then return .lazy
  if ← accept '+' then return .possessive
  return .greedy

/-- The last part of a sequence (kept backwards) repeated. -/
def repeatLast (limits : Nat × Option Nat) : List Part → Step (List Part)
  | ⟨pattern, .yes⟩ :: parts => do
    return ⟨repeated pattern limits.1 limits.2 (← markAppetite), .repetition⟩ :: parts
  | _ => malformed

/-! ## Groups -/

/-- A letter that turns a mode on or off. -/
def isModeLetter (c : Char) : Bool := "iLmsxau".contains c

/-- The mode with a letter's part turned on or off. -/
def Mode.turn (mode : Mode) (on : Bool) : Char → Mode
  | 'i' => { mode with caseless := on }
  | 'm' => { mode with lineAnchors := on }
  | 's' => { mode with dotMatchesAll := on }
  | 'x' => { mode with spaced := on }
  | 'a' => { mode with ascii := on }
  | 'u' => { mode with ascii := !on }
  | _ => mode

/-- The mode of a group whose question mark is followed by the given letter. Letters that turn
a mode on for the whole pattern are only good at its start and so never here. -/
def groupMode (mode : Mode) (first : Char) : Step Mode := do
  let p ← get
  let on := (first :: p.rest).takeWhile isModeLetter
  set { p with rest := (first :: p.rest).drop on.length }
  if on.contains 'L' || (on.contains 'a' && on.contains 'u') then malformed
  let mode' := on.foldl (·.turn true ·) mode
  let c ← take
  if c == ':' && !on.isEmpty then return mode'
  if c != '-' then malformed
  let off ← takeWhile isModeLetter
  expect ':'
  if off.isEmpty || off.any fun c => c == 'L' || c == 'a' || c == 'u' || on.contains c then
    malformed
  return off.foldl (·.turn false ·) mode'

/-- A name of a group: a word that does not start with a digit. -/
def isGroupName : List Char → Bool
  | [] => false
  | c :: rest => (c :: rest).all isWordChar && !isDigit c

/-- The group of a condition, given by name or number. -/
def conditionGroup (name : List Char) : Step Nat := do
  let p ← get
  if isGroupName name then
    match p.names.find? (·.1 == name) with
    | some (_, group) => return group
    | none => malformed
  else if name.all Char.isDigit then
    let group := digitsIn 10 name
    if group = 0 then malformed
    set { p with conditions := group :: p.conditions }
    return group
  else malformed

/-- A new group with a name or without one. -/
def openGroup (name : Option (List Char)) : Step Nat := do
  let p ← get
  match name with
  | none =>
    set { p with groups := p.groups + 1 }
  | some n =>
    if p.names.any (·.1 == n) then malformed
    set { p with groups := p.groups + 1, names := (n, p.groups + 1) :: p.names }
  return p.groups + 1

/-- The width of a pattern as far as it is known. -/
def Progress.widthOf (p : Progress) (pattern : Pattern) : Width :=
  pattern.width fun group => (p.width? group).getD ⟨0, none⟩

/-- A group is closed over its pattern. -/
def closeGroup (group : Nat) (pattern : Pattern) : Step Unit :=
  modify fun p => { p with widths := (group, p.widthOf pattern) :: p.widths }

/-- A look behind has to have one width. -/
def lookBehind (wanted : Bool) (body : Pattern) : Step Part := do
  let width := (← get).widthOf body
  if width.most == some width.least then
    return { pattern := behind wanted width.least body }
  malformed

end ReleaseRunner.Pattern

import ReleaseRunner.Pattern.Escape
import ReleaseRunner.Pattern.Group

/-!
# Reading patterns

The written form of regular expressions: alternatives parted by bars, repetition marks with
their lazy and possessive forms, classes in square brackets, groups in round ones with the
extensions that a question mark opens, and escapes. Reading may start within a sequence whose
first parts are known already (`readAfter`); then a repetition mark at the start of the text
applies to the last of them, and a bar makes them the first alternative.

The reader calls itself for what stands in brackets and for the rest of a sequence. A count
that goes down with every call bounds it; each character costs few calls, so the count is
taken from the length of the text.
-/

namespace ReleaseRunner.Pattern

open ReleaseRunner.Text

/-- The pattern of a sequence kept backwards. -/
def ofParts (parts : List Part) : Pattern :=
  sequence (parts.reverse.map (·.pattern))

/-- The character that any character but a line feed, or any at all, matches. -/
def anyChar (mode : Mode) : Part :=
  let excluded : List ClassItem := if mode.dotMatchesAll then [] else [.single '\n'.toNat]
  { pattern := char ⟨true, excluded⟩ false false }

mutual

/-- Alternatives, the first of which begins with the given parts. -/
def alternatives : Nat → Mode → List Part → Step Pattern
  | 0, _, _ => malformed
  | fuel + 1, mode, parts => do
    let first ← parts? fuel mode parts
    if ← accept '|' then return either first (← alternatives fuel mode [])
    return first

/-- A sequence up to a bar, a closing bracket or the end. -/
def parts? : Nat → Mode → List Part → Step Pattern
  | 0, _, _ => malformed
  | fuel + 1, mode, parts => do
    match ← peek with
    | none => return ofParts parts
    | some c =>
      if c == '|' || c == ')' then return ofParts parts
      discard take?
      if mode.spaced && (c == ' ' || (9 ≤ c.toNat && c.toNat ≤ 13)) then parts? fuel mode parts
      else if mode.spaced && c == '#' then
        discard (takeWhile (· != '\n'))
        discard take?
        parts? fuel mode parts
      else if c == '\\' then parts? fuel mode ((← escape mode) :: parts)
      else if c == '[' then parts? fuel mode ((← bracketClass mode) :: parts)
      else if c == '.' then parts? fuel mode (anyChar mode :: parts)
      else if c == '^' then
        parts? fuel mode
          (⟨anchor (if mode.lineAnchors then .lineStart else .textStart), .anchor⟩ :: parts)
      else if c == '$' then
        parts? fuel mode
          (⟨anchor (if mode.lineAnchors then .lineEnd else .beforeLastBreak), .anchor⟩ :: parts)
      else if c == '(' then
        match ← group? fuel mode with
        | some part => parts? fuel mode (part :: parts)
        | none => parts? fuel mode parts
      else if c == '?' || c == '*' || c == '+' || c == '\x7b' then
        match ← markLimits? c with
        | some limits => parts? fuel mode (← repeatLast limits parts)
        | none => parts? fuel mode (charUnder mode [.single c.toNat] :: parts)
      else parts? fuel mode (charUnder mode [.single c.toNat] :: parts)

/-- What stands in round brackets, the opening one taken; nothing for a comment. -/
def group? : Nat → Mode → Step (Option Part)
  | 0, _ => malformed
  | fuel + 1, mode => do
    if ← accept '?' then
      let c ← take
      if c == ':' then
        let body ← alternatives fuel mode []
        expect ')'
        return some { pattern := body }
      else if c == '>' then
        let body ← alternatives fuel mode []
        expect ')'
        return some { pattern := atomic body }
      else if c == '=' || c == '!' then
        let body ← alternatives fuel mode []
        expect ')'
        return some { pattern := ahead (c == '=') body }
      else if c == '<' then
        let d ← take
        if d != '=' && d != '!' then malformed
        let p ← get
        set { p with lookBehind := some (p.lookBehind.getD (p.groups + 1)) }
        let body ← alternatives fuel mode []
        modify fun q => { q with lookBehind := p.lookBehind }
        expect ')'
        return some (← lookBehind (d == '=') body)
      else if c == '#' then
        discard (takeWhile (· != ')'))
        expect ')'
        return none
      else if c == 'P' then
        let d ← take
        if d == '<' then
          let name ← takeUntil '>'
          if !isGroupName name then malformed
          let index ← openGroup (some name)
          let body ← alternatives fuel mode []
          expect ')'
          closeGroup index body
          return some { pattern := capture index body }
        else if d == '=' then
          let name ← takeUntil ')'
          match (← get).names.find? (·.1 == name) with
          | some (_, index) =>
            checkReference index
            return some { pattern := again index mode.caseless mode.ascii }
          | none => malformed
        else malformed
      else if c == '(' then
        let index ← conditionGroup (← takeUntil ')')
        if (← get).lookBehind.isSome then checkReference index
        let yes ← parts? fuel mode []
        let no ← if ← accept '|' then parts? fuel mode [] else pure nothing
        expect ')'
        return some { pattern := given index yes no }
      else
        let mode ← groupMode mode c
        let body ← alternatives fuel mode []
        expect ')'
        return some { pattern := body }
    else
      let index ← openGroup none
      let body ← alternatives fuel mode []
      expect ')'
      closeGroup index body
      return some { pattern := capture index body }

end

/-- A pattern that begins with known parts, which hold the first groups, and goes on with a
written one. Gives the pattern and the number of its groups. -/
def readAfter (parts : List Part) (widths : List Width) (text : List Char) :
    Except Error (Pattern × Nat) := do
  let start : Progress := {
    rest := text
    groups := widths.length
    widths := (widths.zipIdx.map fun (w, i) => (i + 1, w)).reverse }
  let (pattern, p) ← (alternatives (3 * text.length + 3) {} parts.reverse).run start
  if !p.rest.isEmpty || p.conditions.any (p.groups < ·) then throw .malformed
  return (pattern, p.groups)

/-- The pattern that a text writes, and the number of its groups. -/
def read (text : List Char) : Except Error (Pattern × Nat) :=
  readAfter [] [] text

end ReleaseRunner.Pattern

import ReleaseRunner.Pattern.Progress

/-!
# Escapes and classes

What a backslash and the character after it stand for, within a class in square brackets and
outside, and the items of such a class.
-/

namespace ReleaseRunner.Pattern

open ReleaseRunner.Text

/-! ## Escapes -/

/-- An octal digit. -/
def isOctal (c : Char) : Bool := '0' ≤ c && c ≤ '7'

/-- A hexadecimal digit. -/
def isHex (c : Char) : Bool := c.isDigit || ('a' ≤ c.toLower && c.toLower ≤ 'f')

/-- The code point that exactly so many hexadecimal digits write. -/
def codeOf (count : Nat) : Step Nat := do
  let digits ← takeWhile isHex (some count)
  if digits.length < count then malformed
  let code := digitsIn 16 digits
  if 0x10ffff < code then malformed
  return code

/-- The control character of a one-letter escape. -/
def controlOf : Char → Option Nat
  | 'a' => some 7
  | 'b' => some 8
  | 'f' => some 12
  | 'n' => some 10
  | 'r' => some 13
  | 't' => some 9
  | 'v' => some 11
  | '\\' => some 92
  | _ => none

/-- The class of a one-letter escape. -/
def kindOf : Char → Option ClassItem
  | 'd' => some (.kind .digit true)
  | 'D' => some (.kind .digit false)
  | 's' => some (.kind .space true)
  | 'S' => some (.kind .space false)
  | 'w' => some (.kind .word true)
  | 'W' => some (.kind .word false)
  | _ => none

/-- A code point given by hexadecimal digits, or a character that an escape leaves as it is. -/
def plainEscape (c : Char) : Step Nat := do
  if c == 'x' then codeOf 2
  else if c == 'u' then codeOf 4
  else if c == 'U' then codeOf 8
  else if c.isAlpha then malformed
  else return c.toNat

/-- An escape within a class, its backslash taken. -/
def classEscape : Step ClassItem := do
  let c ← take
  match controlOf c with
  | some code => return .single code
  | none =>
    match kindOf c with
    | some item => return item
    | none =>
      if isOctal c then
        let code := digitsIn 8 (c :: (← takeWhile isOctal (some 2)))
        if 0o377 < code then malformed
        return .single code
      else if c.isDigit then malformed
      else return .single (← plainEscape c)

/-- The anchor of a one-letter escape. -/
def anchorOf (mode : Mode) : Char → Option Anchor
  | 'A' => some .textStart
  | 'Z' => some .textEnd
  | 'b' => some (.wordEdge mode.ascii)
  | 'B' => some (.noWordEdge mode.ascii)
  | _ => none

/-- One character of a class, under a mode. -/
def charUnder (mode : Mode) (items : List ClassItem) (negated : Bool := false) : Part :=
  { pattern := char ⟨negated, items⟩ mode.caseless mode.ascii }

/-- A number after a backslash: three octal digits name a character, anything else a group. -/
def numberEscape (mode : Mode) (first : Char) : Step Part := do
  let second ← takeWhile Char.isDigit (some 1)
  let third ← if isOctal first && second.any isOctal then takeWhile isOctal (some 1) else pure []
  if third.isEmpty then
    let group := digitsIn 10 (first :: second)
    checkReference group
    return { pattern := again group mode.caseless mode.ascii }
  let code := digitsIn 8 (first :: second ++ third)
  if 0o377 < code then malformed
  return charUnder mode [.single code]

/-- An escape, its backslash taken. -/
def escape (mode : Mode) : Step Part := do
  let c ← take
  match anchorOf mode c with
  | some a => return { pattern := anchor a, repeatable := .anchor }
  | none =>
    match kindOf c with
    | some item => return charUnder mode [item]
    | none =>
      match controlOf c with
      | some code => return charUnder mode [.single code]
      | none =>
        if c == '0' then
          return charUnder mode [.single (digitsIn 8 (← takeWhile isOctal (some 2)))]
        else if c.isDigit then numberEscape mode c
        else return charUnder mode [.single (← plainEscape c)]

/-! ## Classes -/

/-- One item of a class from its first character on. -/
def classItem (c : Char) : Step ClassItem := do
  if c == '\\' then classEscape else return .single c.toNat

/-- The items of a class up to its closing bracket, in so many steps at most. A bracket that
comes first is an item. -/
def classItems : Nat → List ClassItem → Step (List ClassItem)
  | 0, _ => malformed
  | fuel + 1, items => do
    let c ← take
    if c == ']' && !items.isEmpty then return items
    let item ← classItem c
    if ← accept '-' then
      let d ← take
      if d == ']' then return items ++ [item, .single '-'.toNat]
      match item, ← classItem d with
      | .single low, .single high =>
        if high < low then malformed
        classItems fuel (items ++ [.range low high])
      | _, _ => malformed
    else classItems fuel (items ++ [item])

/-- A class, its opening bracket taken. -/
def bracketClass (mode : Mode) : Step Part := do
  let negated ← accept '^'
  let items ← classItems ((← get).rest.length + 1) []
  return charUnder mode items negated

end ReleaseRunner.Pattern

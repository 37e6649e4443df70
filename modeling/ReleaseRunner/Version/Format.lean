import ReleaseRunner.Pattern.Reader
import ReleaseRunner.Text.Blank
import ReleaseRunner.Text.Quoted
import ReleaseRunner.Text.Search
import ReleaseRunner.Version.Token

/-!
# Formats of calendar versions

A format names a year, then a month with an optional day or a week, then counters, and then
the modifier. `Format.read` takes the tokens it knows off the front of the text, each with the
separator after it; whatever remains is the tail, and it goes into the format's pattern as it
stands. A bracket counts as a separator, but the one that is matched is the character after
it, which also begins the next token or the tail.
-/

namespace ReleaseRunner.Version

open ReleaseRunner.Text Pattern

/-- A token with the character that parts it from what follows; none at the format's end. -/
structure Element where
  token : Token
  separator : Option Char
deriving Repr, DecidableEq

/-- A format: its text without blanks around it, the tokens in front, and the rest. -/
structure Format where
  text : List Char
  elements : List Element
  tail : List Char
deriving Repr, DecidableEq

/-- What is wrong with a format. -/
inductive FormatFault where
  | noYear
  | monthsAndWeeks
  | weeksAndMonths
  | weeksAndDays
  | microTwice
  | minorAfterMicro
  | minorTwice
deriving Repr, DecidableEq

/-- A text that is no format, and why. -/
structure FormatError where
  text : List Char
  fault : FormatFault
deriving Repr, DecidableEq

/-- The wording of a fault. -/
def FormatFault.message : FormatFault → String
  | .noYear => "must start with a year token (YYYY, YY, 0Y)"
  | .monthsAndWeeks => "cannot mix months and weeks"
  | .weeksAndMonths => "cannot mix weeks and months"
  | .weeksAndDays => "cannot mix weeks and days"
  | .microTwice => "has MICRO more than once"
  | .minorAfterMicro => "has MINOR after MICRO"
  | .minorTwice => "has MINOR more than once"

/-- The wording of the error. -/
def FormatError.message (e : FormatError) : String :=
  s!"Format {quoted (String.ofList e.text)} {e.fault.message}"

/-! ## Reading -/

/-- A character at which a token ends. -/
def isDelimiter (c : Char) : Bool :=
  c == '.' || c == '_' || c == '-' || c == '['

/-- The text up to the next delimiter, the separator that it makes, and what follows the
delimiter. A bracket makes the character after it the separator, and leaves it in place. -/
def takeText (s : List Char) : List Char × Option Char × List Char :=
  let word := s.takeWhile (!isDelimiter ·)
  match s.dropWhile (!isDelimiter ·) with
  | [] => (word, none, [])
  | '[' :: c :: rest => (word, some c, c :: rest)
  | c :: rest => (word, some c, rest)

/-- The token at the front of a text, if it stands for one of the given numbers. -/
def takeToken? (slots : List Slot) (s : List Char) : Option (Element × List Char) :=
  let (word, separator, rest) := takeText s
  match Token.ofText? word with
  | some token => if slots.contains token.slot then some (⟨token, separator⟩, rest) else none
  | none => none

/-- The text holds a token for the given number, wherever it stands. -/
def mentions (text : List Char) (slot : Slot) : Bool :=
  Token.all.any fun token => token.slot == slot && occursIn token.text.toList text

/-- The month and day, or the week, after the year. -/
def readDate (text s : List Char) : Except FormatFault (List Element × List Char) :=
  match takeToken? [.month, .week] s with
  | none => .ok ([], s)
  | some (e, s) =>
    if e.token.slot == .month then
      if mentions text .week then .error .monthsAndWeeks
      else match takeToken? [.day] s with
        | some (d, s) => .ok ([e, d], s)
        | none => .ok ([e], s)
    else if mentions text .month then .error .weeksAndMonths
    else if mentions text .day then .error .weeksAndDays
    else .ok ([e], s)

/-- The counters: a minor one, a micro one, or both in this order. -/
def readCounters (s : List Char) : Except FormatFault (List Element × List Char) :=
  match takeToken? [.minor, .micro] s with
  | none => .ok ([], s)
  | some (e, s) =>
    match takeToken? [.minor, .micro] s with
    | none => .ok ([e], s)
    | some (d, s) =>
      match e.token.slot, d.token.slot with
      | .micro, .micro => .error .microTwice
      | .micro, _ => .error .minorAfterMicro
      | _, .minor => .error .minorTwice
      | _, _ => .ok ([e, d], s)

/-- The tokens in front of a text and what follows them. -/
def readElements (text : List Char) : Except FormatFault (List Element × List Char) := do
  let some (year, s) := takeToken? [.year] text | throw .noYear
  let (date, s) ← readDate text s
  let (counters, s) ← readCounters s
  return (year :: date ++ counters, s)

namespace Format

/-- The format that a text writes. -/
def read (text : String) : Except FormatError Format :=
  let cs := stripped text.toList
  match readElements cs with
  | .ok (elements, tail) => .ok ⟨cs, elements, tail⟩
  | .error fault => .error ⟨cs, fault⟩

/-- The token for a number. -/
def token? (format : Format) (slot : Slot) : Option Token :=
  (format.elements.find? (·.token.slot == slot)).map (·.token)

/-! ## The pattern -/

/-- A separator as it is written in a pattern; a point is escaped. -/
def separatorWritten (c : Char) : List Char :=
  if c == '.' then ['\\', '.'] else [c]

/-- The closing of an optional modifier. -/
def optionalEnd : List Char := "MODIFIER]".toList

/-- The tail makes the modifier optional, together with the separator in front of it. -/
def endsOptional (format : Format) : Bool :=
  optionalEnd.isSuffixOf format.tail

/-- The separator after the last token. -/
def lastSeparator (format : Format) : List Char :=
  match format.elements.getLast? with
  | some ⟨_, some c⟩ => separatorWritten c
  | _ => []

/-- An optional modifier with its separator, as it is written in a pattern. -/
def optionalWritten (format : Format) : List Char :=
  "(?:".toList ++ format.lastSeparator ++ modifierWritten.toList ++ ")?".toList

/-- The pieces of a format: tokens, written separators and the tail. -/
def pieces (format : Format) : List (List Char) :=
  let front := format.elements.flatMap fun e =>
    e.token.text.toList :: e.separator.toList.map separatorWritten
  if format.endsOptional then front.dropLast ++ [format.optionalWritten]
  else if format.tail.isEmpty then front
  else front ++ [format.tail]

/-- A tail as it is written in a pattern: a token or the modifier gives its form. -/
def tailWritten (tail : List Char) : List Char :=
  if tail = "MODIFIER".toList then modifierWritten.toList
  else match Token.ofText? tail with
    | some token => token.written.toList
    | none => tail

/-- The written part of the pattern, from the separator after the last token on. -/
def restWritten (format : Format) : List Char :=
  (if format.endsOptional then format.optionalWritten
    else format.lastSeparator ++ tailWritten format.tail) ++ ['$']

/-- The parts of the pattern that the tokens give, with the separators between them. -/
def knownParts : Nat → List Element → List Part
  | _, [] => []
  | i, [e] => [⟨capture i e.token.pattern, .yes⟩]
  | i, e :: es =>
    ⟨capture i e.token.pattern, .yes⟩ ::
      (e.separator.toList.map fun c => ⟨literal c, .yes⟩) ++ knownParts (i + 1) es

/-- The pattern of a format's versions, and the number of its groups. The groups of the tokens
come first, in the order of the tokens. -/
def pattern (format : Format) : Except Pattern.Error (Pattern × Nat) :=
  readAfter (⟨anchor .textStart, .anchor⟩ :: knownParts 1 format.elements)
    (format.elements.map fun e => e.token.pattern.width fun _ => ⟨0, none⟩)
    format.restWritten

end Format

end ReleaseRunner.Version

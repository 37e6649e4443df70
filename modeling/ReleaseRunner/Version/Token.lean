import ReleaseRunner.Pattern.Basic

/-!
# Tokens of calendar versions

A token stands in a format for one number of a version: years, months, weeks and days with or
without a leading nought, and two counters. Each token has the form of its numbers as a
pattern. The modifier is no token, because it is what remains of a format.
-/

namespace ReleaseRunner.Version

/-- The numbers that a version may have, in the order in which a format names them. -/
inductive Slot where
  | year
  | month
  | week
  | day
  | minor
  | micro
deriving Repr, DecidableEq

/-- A place for a number in a format. -/
inductive Token where
  | fullYear
  | shortYear
  | paddedYear
  | month
  | paddedMonth
  | week
  | paddedWeek
  | day
  | paddedDay
  | minor
  | micro
deriving Repr, DecidableEq

namespace Token

/-- Every token. -/
def all : List Token :=
  [fullYear, shortYear, paddedYear, month, paddedMonth, week, paddedWeek, day, paddedDay, minor,
    micro]

/-- The token as a format writes it. -/
def text : Token → String
  | fullYear => "YYYY"
  | shortYear => "YY"
  | paddedYear => "0Y"
  | month => "MM"
  | paddedMonth => "0M"
  | week => "WW"
  | paddedWeek => "0W"
  | day => "DD"
  | paddedDay => "0D"
  | minor => "MINOR"
  | micro => "MICRO"

/-- The number that a token stands for. -/
def slot : Token → Slot
  | fullYear | shortYear | paddedYear => .year
  | month | paddedMonth => .month
  | week | paddedWeek => .week
  | day | paddedDay => .day
  | minor => .minor
  | micro => .micro

/-- The token that a text writes. -/
def ofText? (s : List Char) : Option Token :=
  all.find? (·.text.toList == s)

end Token

/-! ## The form of the numbers -/

open Pattern

/-- One or two digits, the first of which is not nought, and three of them. -/
def uptoThreeDigits : List Pattern :=
  let first := between '1' '9'
  let digit := between '0' '9'
  [seq first digit, seq first (repeated digit 2 (some 2) .greedy)]

/-- A digit from one on, after a nought if it is padded. -/
def oneDigit (padded : Bool) : Pattern :=
  if padded then seq (literal '0') (between '1' '9') else between '1' '9'

/-- A counter: nought, or digits of any script after one from one to nine. -/
def counter : Pattern :=
  either (literal '0')
    (seq (between '1' '9')
      (repeated (char ⟨false, [.kind .digit true]⟩ false false) 0 none .greedy))

/-- The form of a token's numbers. -/
def Token.pattern : Token → Pattern
  | .fullYear => seq (between '2' '9') (repeated (between '0' '9') 3 (some 3) .greedy)
  | .shortYear => choice (oneDigit false :: uptoThreeDigits)
  | .paddedYear => choice (oneDigit true :: uptoThreeDigits)
  | .month => choice [oneDigit false, seq (literal '1') (between '0' '2')]
  | .paddedMonth => choice [oneDigit true, seq (literal '1') (between '0' '2')]
  | .week => weeks false
  | .paddedWeek => weeks true
  | .day => days false
  | .paddedDay => days true
  | .minor => counter
  | .micro => counter
where
  weeks (padded : Bool) : Pattern :=
    choice [oneDigit padded, seq (between '1' '4') (between '0' '9'),
      seq (literal '5') (between '0' '2')]
  days (padded : Bool) : Pattern :=
    choice [oneDigit padded, seq (between '1' '2') (between '0' '9'),
      seq (literal '3') (between '0' '1')]

/-- The form of a token's numbers as it is written in a pattern. -/
def Token.written : Token → String
  | .fullYear => "([2-9][0-9]\x7b3\x7d)"
  | .shortYear => "([1-9]|[1-9][0-9]|[1-9][0-9]\x7b2\x7d)"
  | .paddedYear => "(0[1-9]|[1-9][0-9]|[1-9][0-9]\x7b2\x7d)"
  | .month => "([1-9]|1[0-2])"
  | .paddedMonth => "(0[1-9]|1[0-2])"
  | .week => "([1-9]|[1-4][0-9]|5[0-2])"
  | .paddedWeek => "(0[1-9]|[1-4][0-9]|5[0-2])"
  | .day => "([1-9]|[1-2][0-9]|3[0-1])"
  | .paddedDay => "(0[1-9]|[1-2][0-9]|3[0-1])"
  | .minor => "(0|[1-9]\\d*)"
  | .micro => "(0|[1-9]\\d*)"

/-- The form of a modifier as it is written in a pattern. -/
def modifierWritten : String := "([a-zA-Z\\-][0-9a-zA-Z\\-]*)"

end ReleaseRunner.Version

import ReleaseRunner.Number.Power
import ReleaseRunner.Text.Blank
import ReleaseRunner.Text.Digit
import ReleaseRunner.Text.Quoted

/-!
# Whole numbers in text

A whole number is written in decimal digits of any script, with an optional sign, blanks
around it, and single underscores between digits. A number of more than `digitLimit` digits is
refused in both directions, because converting it costs time beyond its length.
-/

namespace ReleaseRunner.Number

open ReleaseRunner.Text

/-- The longest number that is converted, in digits. -/
def digitLimit : Nat := 4300

/-- Why a text is not read as a number, or a number not written. -/
inductive IntegerError where
  | notANumber (text : String)
  | tooLongToRead (digits : Nat)
  | tooLongToWrite
deriving Repr, DecidableEq

/-- The wording; of a long text only the beginning is shown. -/
def IntegerError.message : IntegerError → String
  | .notANumber text =>
    "invalid literal for int() with base 10: " ++ String.ofList ((quoted text).toList.take 200)
  | .tooLongToRead digits =>
    s!"Exceeds the limit ({digitLimit} digits) for integer string conversion: " ++
      s!"value has {digits} digits; use sys.set_int_max_str_digits() to increase the limit"
  | .tooLongToWrite =>
    s!"Exceeds the limit ({digitLimit} digits) for integer string conversion; " ++
      "use sys.set_int_max_str_digits() to increase the limit"

/-- The digits at the start of a text, where `after` says that a digit stands before it, and
what follows them. Underscores part digits singly; a stray one gives `none`. -/
def digitRun : Bool → List Char → Option (List Nat × List Char)
  | after, [] => if after then some ([], []) else none
  | after, '_' :: rest =>
    if after then
      match rest with
      | d :: rest' =>
        match digitValue? d with
        | some v => (digitRun true rest').map fun (vs, r) => (v :: vs, r)
        | none => none
      | [] => none
    else none
  | after, c :: rest =>
    match digitValue? c with
    | some v => (digitRun true rest).map fun (vs, r) => (v :: vs, r)
    | none => if after then some ([], c :: rest) else none

/-- The number with the given digits, the most significant one first. -/
def ofDigits (digits : List Nat) : Nat :=
  digits.foldl (fun n d => 10 * n + d) 0

/-- The sign at the start of a text and what follows it. -/
def takeSign : List Char → Bool × List Char
  | '-' :: rest => (true, rest)
  | '+' :: rest => (false, rest)
  | s => (false, s)

/-- The number that a text writes. -/
def readInteger (text : String) : Except IntegerError Int :=
  let (negative, body) := takeSign (stripped text.toList)
  match digitRun false body with
  | none => .error (.notANumber text)
  | some (digits, rest) =>
    if digitLimit < digits.length then .error (.tooLongToRead digits.length)
    else if rest.isEmpty then
      .ok (if negative then -(ofDigits digits : Int) else ofDigits digits)
    else .error (.notANumber text)

/-- The number in decimal digits. -/
def writeInteger (n : Int) : Except IntegerError String :=
  if n.natAbs < tenTo digitLimit then .ok (toString n) else .error .tooLongToWrite

end ReleaseRunner.Number

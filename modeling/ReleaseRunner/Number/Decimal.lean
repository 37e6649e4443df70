import ReleaseRunner.Number.Binary64

/-!
# Decimal text of binary numbers

Ways of writing a number of the binary format in decimal digits: the shortest digits that read
back as the number (`shortest`), a fixed number of places (`fixed`), a fixed number of places
with an exponent (`scientific`), and a fixed number of significant digits (`general`). All
decide on exact integers; a tie goes to the even digit.
-/

namespace ReleaseRunner.Number

/-- Decimal digits with the place of the first one: `d₀.d₁d₂… * 10 ^ exponent`. -/
structure DecimalForm where
  digits : List Char
  exponent : Int
deriving Repr, DecidableEq

namespace DecimalForm

/-- The digits of a number without the noughts at their end. -/
def ofNat (n : Nat) (exponent : Int) : DecimalForm :=
  let digits := Nat.toDigits 10 n
  let kept := (digits.reverse.dropWhile (· == '0')).reverse
  ⟨if kept.isEmpty then ['0'] else kept, exponent⟩

end DecimalForm

namespace Binary64

/-- The power of ten at or below the positive number `num / den`. -/
def magnitude (num den : Nat) : Int :=
  if den ≤ num then (decimalLength (num / den) : Int) - 1
  else
    let up := (den + num - 1) / num
    let length := decimalLength up
    if tenTo (length - 1) = up then 1 - (length : Int) else -(length : Int)

/-- The interval of the counts of quarter units that read back as the number with the given
units, and whether its ends belong to it. -/
def readBack (units : Nat) : Nat × Nat × Bool :=
  let step := spacing units
  let below := if 1 < step ∧ units = twoTo 52 * step then step else 2 * step
  (4 * units - below, 4 * units + 2 * step, units / step % 2 == 0)

/-- A count of decimal grid steps reads back as the number: the step is `num / den` quarter
units. -/
def readsBack (units count num den : Nat) : Bool :=
  let (low, high, closed) := readBack units
  let value := count * num
  if closed then low * den ≤ value && value ≤ high * den
  else low * den < value && value < high * den

/-- The grid of `10 ^ place` in quarter units, as a quotient. -/
def grid (place : Int) : Nat × Nat :=
  if 0 ≤ place then (4 * one * tenTo place.toNat, 1) else (4 * one, tenTo (-place).toNat)

/-- The grid count nearest to the number among its two neighbours that read back. -/
def nearestOnGrid? (units : Nat) (place : Int) : Option Nat :=
  let (num, den) := grid place
  let target := 4 * units * den
  let low := target / num
  let lowFits := 0 < low && readsBack units low num den
  let highFits := readsBack units (low + 1) num den
  if lowFits && highFits then some (roundDiv target num)
  else if lowFits then some low
  else if highFits then some (low + 1)
  else none

/-- The first grid, from coarse to fine, with a neighbour that reads back. -/
def shortestFrom (units : Nat) : Nat → Int → DecimalForm
  | 0, place => .ofNat units place
  | tries + 1, place =>
    match nearestOnGrid? units place with
    | some count => .ofNat count (place + decimalLength count - 1)
    | none => shortestFrom units tries (place - 1)

/-- The fewest digits that read back as the positive number, nearest to it among those. -/
def shortestForm (units : Nat) : DecimalForm :=
  shortestFrom units 20 (magnitude units one)

/-- Digits in the middle of which the point may stand; `.0` marks a whole number. -/
def positional (form : DecimalForm) : List Char :=
  if form.exponent < 0 then
    '0' :: '.' :: (List.replicate ((-form.exponent).toNat - 1) '0' ++ form.digits)
  else
    let whole := form.exponent.toNat + 1
    if form.digits.length ≤ whole then
      form.digits ++ List.replicate (whole - form.digits.length) '0' ++ ['.', '0']
    else form.digits.take whole ++ '.' :: form.digits.drop whole

/-- An exponent with its sign and at least two digits. -/
def exponentText (mark : Char) (exponent : Int) : List Char :=
  let digits := Nat.toDigits 10 exponent.natAbs
  mark :: (if exponent < 0 then '-' else '+') ::
    (if digits.length < 2 then '0' :: digits else digits)

/-- Digits with the point after the first one, and an exponent. -/
def withExponent (form : DecimalForm) : List Char :=
  match form.digits with
  | [] => []
  | [d] => d :: exponentText 'e' form.exponent
  | d :: rest => d :: '.' :: rest ++ exponentText 'e' form.exponent

/-- The sign in front of the text of a number. -/
def signText (negative : Bool) : List Char :=
  if negative then ['-'] else []

/-- The shortest text that reads back. Magnitudes from `10 ^ -4` and below `10 ^ 16` are written
without an exponent. -/
def shortest : Binary64 → String
  | nan => "nan"
  | infinite s => String.ofList (signText s ++ "inf".toList)
  | finite s 0 => String.ofList (signText s ++ "0.0".toList)
  | finite s units =>
    let form := shortestForm units
    String.ofList <| signText s ++
      if -4 ≤ form.exponent ∧ form.exponent < 16 then positional form else withExponent form

/-- Decimal digits with a point before the last `places` of them. A point with nothing behind
it is left out unless `full` asks for it. -/
def pointed (n places : Nat) (full : Bool) : List Char :=
  let digits := Nat.toDigits 10 n
  let digits := List.replicate (places + 1 - digits.length) '0' ++ digits
  let whole := digits.length - places
  if places = 0 && !full then digits else digits.take whole ++ '.' :: digits.drop whole

/-- The number rounded to so many decimal places. -/
def fixed (places : Nat) (x : Binary64) (full : Bool := false) : String :=
  match x with
  | nan => "nan"
  | infinite s => String.ofList (signText s ++ "inf".toList)
  | finite s units =>
    String.ofList (signText s ++ pointed (roundDiv (units * tenTo places) one) places full)

/-- The positive number rounded to `places + 1` significant digits, and the exponent of the
first one. -/
def significant (units places : Nat) : Nat × Int :=
  let e := magnitude units one
  let place := e - places
  let count :=
    if 0 ≤ place then roundDiv units (one * tenTo place.toNat)
    else roundDiv (units * tenTo (-place).toNat) one
  if count = tenTo (places + 1) then (tenTo places, e + 1) else (count, e)

/-- The number rounded to one digit before the point and so many after it, with an exponent. -/
def scientific (places : Nat) (x : Binary64) (full : Bool := false) : String :=
  match x with
  | nan => "nan"
  | infinite s => String.ofList (signText s ++ "inf".toList)
  | finite s units =>
    let (count, e) := if units = 0 then (0, 0) else significant units places
    String.ofList (signText s ++ pointed count places full ++ exponentText 'e' e)

/-- Digits with a point among them, without the noughts at their end, and without the point
where nothing is left behind it. -/
def trimmed (text : List Char) : List Char :=
  ((text.reverse.dropWhile (· == '0')).dropWhile (· == '.')).reverse

/-- The number in `places` significant digits, trimmed unless it is to be `full`; an exponent
is written where it is below -4 or at least `places`. -/
def general (places : Nat) (x : Binary64) (full : Bool := false) : String :=
  match x with
  | nan => "nan"
  | infinite s => String.ofList (signText s ++ "inf".toList)
  | finite s units =>
    let places := max places 1
    let (count, e) := if units = 0 then (0, 0) else significant units (places - 1)
    let shaped (text : List Char) := if full then text else trimmed text
    String.ofList <| signText s ++
      if -4 ≤ e ∧ e < places then shaped (pointed count (places - 1 - e).toNat true)
      else shaped (pointed count (places - 1) true) ++ exponentText 'e' e

end Binary64

end ReleaseRunner.Number

import ReleaseRunner.Number.Power

/-!
# Binary floating point of 64 bits

Every finite number of the format is a whole number of its smallest positive number, which is
`2 ^ -1074`. A number is therefore kept as a sign and a count of that unit, and every operation
is one exact integer computation followed by one rounding, `round`: to the nearest number with
53 significant bits, ties to the even one.
-/

namespace ReleaseRunner.Number

/-- A number of the format. Zero has a sign as well. -/
inductive Binary64 where
  | nan
  | infinite (negative : Bool)
  | finite (negative : Bool) (units : Nat)
deriving Repr, DecidableEq

namespace Binary64

/-- The units in the number one. -/
def one : Nat := twoTo 1074

/-- The units in the first power of two that is too large for the format. -/
def overflow : Nat := twoTo 2098

/-- The number of binary digits. -/
def bits (n : Nat) : Nat :=
  if n = 0 then 0 else n.log2 + 1

/-- A quotient rounded to the nearest whole number, a tie to the even one. -/
def roundDiv (num den : Nat) : Nat :=
  let q := num / den
  let r := num % den
  if 2 * r < den then q
  else if den < 2 * r then q + 1
  else q + q % 2

/-- The distance between neighbouring numbers of the format around a count of units. -/
def spacing (units : Nat) : Nat :=
  twoTo (bits units - 53)

/-- The number nearest to `num / den` units. -/
def round (negative : Bool) (num den : Nat) : Binary64 :=
  let step := spacing (num / den)
  let units := roundDiv num (den * step) * step
  if units < overflow then finite negative units else infinite negative

/-- The number nearest to a quotient of whole numbers. -/
def ofRatio (negative : Bool) (num den : Nat) : Binary64 :=
  round negative (num * one) den

/-- The number nearest to an integer. -/
def ofInt (n : Int) : Binary64 :=
  ofRatio (n < 0) n.natAbs 1

/-- The digits in the decimal form of a number; nought has one. -/
def decimalLength (n : Nat) : Nat :=
  (Nat.toDigits 10 n).length

/-- The number nearest to `digits * 10 ^ exponent`. Exponents far outside the format are
decided by the order of magnitude, so that no huge power is computed. -/
def ofDecimal (negative : Bool) (digits : Nat) (exponent : Int) : Binary64 :=
  if digits = 0 then finite negative 0
  else
    let magnitude := exponent + decimalLength digits
    if 400 < magnitude then infinite negative
    else if magnitude < -400 then finite negative 0
    else if 0 ≤ exponent then ofRatio negative (digits * tenTo exponent.toNat) 1
    else ofRatio negative digits (tenTo (-exponent).toNat)

/-- The exact value of a finite number in units, with its sign. -/
def signed (negative : Bool) (units : Nat) : Int :=
  if negative then -(units : Int) else units

/-- The number nearest to a count of units with its sign; an exact zero is positive. -/
def ofUnits (units : Int) : Binary64 :=
  round (units < 0) units.natAbs 1

/-- The difference of two numbers. -/
def sub : Binary64 → Binary64 → Binary64
  | nan, _ => nan
  | _, nan => nan
  | infinite s, infinite t => if s = t then nan else infinite s
  | infinite s, finite _ _ => infinite s
  | finite _ _, infinite t => infinite (!t)
  | finite s m, finite t n =>
    if m = 0 ∧ n = 0 then finite (s && !t) 0
    else ofUnits (signed s m - signed t n)

/-- The opposite number. -/
def neg : Binary64 → Binary64
  | nan => nan
  | infinite s => infinite (!s)
  | finite s m => finite (!s) m

/-- A number divided by a positive whole number. -/
def divNat : Binary64 → Nat → Binary64
  | finite s m, n => round s m n
  | x, _ => x

/-- The remainder of a number by a positive whole number, with the sign of the number. -/
def remNat : Binary64 → Nat → Binary64
  | finite s m, n => finite s (m % (n * one))
  | _, _ => nan

/-- The greatest whole number not above a number. -/
def floor : Binary64 → Binary64
  | finite false m => finite false (m / one * one)
  | finite true m => round true ((m + one - 1) / one * one) 1
  | x => x

/-- The number is zero, of either sign. -/
def isZero : Binary64 → Bool
  | finite _ m => m == 0
  | _ => false

/-- The number is below zero. -/
def isNegative : Binary64 → Bool
  | finite s m => s && m != 0
  | infinite s => s
  | nan => false

/-- The number is above zero. -/
def isPositive : Binary64 → Bool
  | finite s m => !s && m != 0
  | infinite s => !s
  | nan => false

/-- The whole number that is left when the fraction is dropped. -/
def truncate? : Binary64 → Option Int
  | finite s m => some (signed s (m / one))
  | _ => none

/-- The whole number that a number equals. -/
def toInt? : Binary64 → Option Int
  | finite s m => if m % one = 0 then some (signed s (m / one)) else none
  | _ => none

/-- Quotient and remainder by a positive whole number, the quotient rounded to the floor and
the remainder never negative. The quotient is computed from the number less its remainder, so
it is a whole number but for the rounding, which the last step takes back. -/
def divModNat (x : Binary64) (n : Nat) : Binary64 × Binary64 :=
  let r := x.remNat n
  let q := (x.sub r).divNat n
  let (q, r) :=
    if r.isZero then (q, finite false 0)
    else if r.isNegative then (q.sub (ofInt 1), r.sub (ofInt (-(n : Int))))
    else (q, r)
  let whole := q.floor
  let whole :=
    match q.sub whole with
    | finite false m => if one < 2 * m then whole.sub (ofInt (-1)) else whole
    | _ => whole
  (whole, r)

end Binary64

end ReleaseRunner.Number

import ReleaseRunner.Number.Binary64

/-!
# Instants

Instants are counted in microseconds from the start of 1970, without leap seconds. A clock
gives one instant after the other, at a fixed distance.
-/

namespace ReleaseRunner

open ReleaseRunner.Number

/-- An instant, in microseconds. -/
structure Instant where
  micros : Int
deriving Repr, DecidableEq

namespace Instant

/-- The number in at least so many digits. -/
def digits (width : Nat) (n : Int) : String :=
  let text := toString n.toNat
  String.ofList (List.replicate (width - text.length) '0') ++ text

/-- Year, month and day of a day, counted from the start of 1970. The years are counted from
March, so that the day that a leap year adds is the last one, and in cycles of 400 years, all
of which have the same number of days. -/
def civil (day : Int) : Int × Int × Int :=
  let z := day + 719468
  let cycle := z.fdiv 146097
  let dayOfCycle := z.fmod 146097
  let yearOfCycle :=
    (dayOfCycle - dayOfCycle / 1460 + dayOfCycle / 36524 - dayOfCycle / 146096) / 365
  let dayOfYear := dayOfCycle - (365 * yearOfCycle + yearOfCycle / 4 - yearOfCycle / 100)
  let m := (5 * dayOfYear + 2) / 153
  let d := dayOfYear - (153 * m + 2) / 5 + 1
  let month := if m < 10 then m + 3 else m - 9
  (yearOfCycle + 400 * cycle + (if month ≤ 2 then 1 else 0), month, d)

/-- The instant in the notation of ISO 8601, in universal time; a fraction of a second has six
digits and is left out when it is nought. -/
def text (i : Instant) : String :=
  let micros := i.micros.fmod 1000000
  let seconds := i.micros.fdiv 1000000
  let (year, month, day) := civil (seconds.fdiv 86400)
  let second := seconds.fmod 86400
  s!"{digits 4 year}-{digits 2 month}-{digits 2 day}T" ++
    s!"{digits 2 (second / 3600)}:{digits 2 (second / 60 % 60)}:{digits 2 (second % 60)}" ++
    (if micros = 0 then "" else "." ++ digits 6 micros) ++ "+00:00"

/-- The seconds from one instant to another. -/
def secondsTo (start stop : Instant) : Binary64 :=
  let micros := stop.micros - start.micros
  .ofRatio (micros < 0) micros.natAbs 1000000

end Instant

/-- A clock: its next reading and the distance between readings. -/
structure Clock where
  next : Instant
  tick : Int
deriving Repr, DecidableEq

/-- A reading of the clock, and the clock after it. -/
def Clock.read (clock : Clock) : Instant × Clock :=
  (clock.next, { clock with next := ⟨clock.next.micros + clock.tick⟩ })

end ReleaseRunner

import ReleaseRunner.Number.Decimal

/-!
# Durations in text

A duration is shown in hours, minutes and seconds with three places, the greater parts only
where they are needed. Minutes are split off before the seconds are rounded. The seconds may
be a whole number or a binary one; both are split with the quotient rounded to the floor.
-/

namespace ReleaseRunner.Duration

open ReleaseRunner.Number

/-- What is said where the minutes are no number, which they are not when the seconds are
unbounded or no number themselves. -/
def notANumber : String := "cannot convert float NaN to integer"

/-- Minutes in all and the seconds left over, as text. -/
def shown (minutes : Int) (seconds : String) : String :=
  let hours := minutes.fdiv 60
  let minutes := minutes.fmod 60
  if hours ≠ 0 then s!"{hours}h {minutes}m {seconds}s"
  else if minutes ≠ 0 then s!"{minutes}m {seconds}s"
  else s!"{seconds}s"

/-- A whole number of seconds. -/
def ofWhole (seconds : Int) : String :=
  shown (seconds.fdiv 60) ((Binary64.ofInt (seconds.fmod 60)).fixed 3)

/-- A binary number of seconds. -/
def ofBinary (seconds : Binary64) : Except String String :=
  let (minutes, rest) := seconds.divModNat 60
  match minutes.truncate? with
  | some minutes => .ok (shown minutes (rest.fixed 3))
  | none => .error notANumber

end ReleaseRunner.Duration

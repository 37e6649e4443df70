/-!
# The Gregorian calendar

The days of a month, for any year: the calendar is extended backwards past its start and
forwards without end.
-/

namespace ReleaseRunner.Version

/-- A year with a twenty-ninth of February. -/
def isLeapYear (year : Int) : Bool :=
  year % 4 == 0 && (year % 100 != 0 || year % 400 == 0)

/-- The days of a month; `none` where the number names no month. -/
def daysInMonth? (year month : Int) : Option Nat :=
  if month = 2 then some (if isLeapYear year then 29 else 28)
  else if month ∈ [4, 6, 9, 11] then some 30
  else if month ∈ [1, 3, 5, 7, 8, 10, 12] then some 31
  else none

end ReleaseRunner.Version

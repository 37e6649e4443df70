import ReleaseRunner.Version.CalVer

/-!
# The order of versions

Versions of different formats are ordered by the text of the format. Within a format the
numbers decide, from the year down, and then the modifier, where none comes last. Where the
other version lacks a number it counts as nought; where this one lacks it, it is passed over.
The four comparisons other than equality come from the order in the usual way.
-/

namespace ReleaseRunner.Version

open ReleaseRunner.Number

namespace CalVer

/-- Minus one, nought or one as the first text is below, equal to or above the second. -/
def signOf (a b : String) : Int :=
  if a = b then 0 else if a < b then -1 else 1

/-- The numbers after the year, in the order in which they are compared. -/
def comparedSlots : List Slot := [.month, .week, .day, .minor, .micro]

/-- The first difference that is not nought, of the numbers that are compared. -/
def firstDifference (differences : List Int) : Int :=
  (differences.find? (· != 0)).getD 0

/-- The difference at a number: this version's less the other's, which counts as nought where it
is missing. -/
def difference (v w : CalVer) (slot : Slot) : Except IntegerError Int := do
  let mine ← v.number slot
  let theirs ← w.number slot
  return mine - max theirs 0

/-- How the modifiers compare; a version without one is passed over. -/
def compareModifiers (v w : CalVer) : Int :=
  match v.modifier, w.modifier with
  | none, _ => 0
  | some _, none => -1
  | some a, some b => signOf a b

/-- Below nought, nought or above nought as the version is below, level with or above the
other. -/
def compare (v w : CalVer) : Except IntegerError Int := do
  if v.pattern ≠ w.pattern then return signOf v.pattern w.pattern
  let year ← v.difference w .year
  let differences ← comparedSlots.mapM fun slot => do
    let d ← v.difference w slot
    return if (v.slot slot).isSome then d else 0
  let result := firstDifference (year :: differences)
  return if result = 0 then v.compareModifiers w else result

/-- The version comes before the other. -/
def lt (v w : CalVer) : Except IntegerError Bool := do
  return (← v.compare w) < 0

/-- The version comes before the other or equals it. -/
def le (v w : CalVer) : Except IntegerError Bool := do
  return (← v.lt w) || v = w

/-- The version does not come before the other and differs from it. -/
def gt (v w : CalVer) : Except IntegerError Bool := do
  return !(← v.lt w) && v ≠ w

/-- The version does not come before the other. -/
def ge (v w : CalVer) : Except IntegerError Bool := do
  return !(← v.lt w)

/-- The versions have the same format. -/
def sameFormat (v w : CalVer) : Bool := v.pattern == w.pattern

/-- What a comparison of a version with a plain text says: the two are never equal, and neither
comes first. -/
def textRefusal : String := "'<' not supported between instances of 'CalVer' and 'str'"

/-! ## Sorting -/

/-- The length of the run in front of a list: it descends, or it never descends. -/
def runLength : Bool → CalVer → List CalVer → Except IntegerError Nat
  | _, _, [] => return 1
  | descending, v, w :: rest => do
    if (← w.lt v) == descending then return (← runLength descending w rest) + 1
    else return 1

/-- The list with the run in front put into order: a descending one is turned round. -/
def leadingRun : List CalVer → Except IntegerError (List CalVer × List CalVer)
  | v :: w :: rest => do
    let descending ← w.lt v
    let n := (← runLength descending w rest) + 1
    let (run, rest) := (v :: w :: rest).splitAt n
    return (if descending then run.reverse else run, rest)
  | vs => return (vs, [])

/-- The place for a version in a sorted list, after those level with it, between two places;
found by halving the distance. -/
def placeFor (v : CalVer) (sorted : List CalVer) : Nat → Nat → Nat → Except IntegerError Nat
  | 0, low, _ => return low
  | fuel + 1, low, high =>
    if low < high then do
      let middle := (low + high) / 2
      match sorted[middle]? with
      | some w =>
        if ← v.lt w then placeFor v sorted fuel low middle
        else placeFor v sorted fuel (middle + 1) high
      | none => return low
    else return low

/-- The sorted list with further versions put in, one after the other. -/
def insertAll (sorted : List CalVer) : List CalVer → Except IntegerError (List CalVer)
  | [] => return sorted
  | v :: rest => do
    let place ← placeFor v sorted sorted.length 0 sorted.length
    insertAll (sorted.take place ++ v :: sorted.drop place) rest

/-- The versions in order, those level with each other as they came. -/
def sort (versions : List CalVer) : Except IntegerError (List CalVer) := do
  let (run, rest) ← leadingRun versions
  insertAll run rest

/-- The versions in falling order, those level with each other as they came. -/
def sortFalling (versions : List CalVer) : Except IntegerError (List CalVer) := do
  return (← sort versions.reverse).reverse

/-- The first of the least versions. -/
def least : CalVer → List CalVer → Except IntegerError CalVer
  | v, [] => return v
  | v, w :: rest => do least (if ← w.lt v then w else v) rest

/-- The first of the greatest versions. -/
def greatest : CalVer → List CalVer → Except IntegerError CalVer
  | v, [] => return v
  | v, w :: rest => do greatest (if ← w.gt v then w else v) rest

/-- How many versions there are when equal ones count once. -/
def distinct (versions : List CalVer) : Nat :=
  versions.eraseDups.length

end CalVer

end ReleaseRunner.Version

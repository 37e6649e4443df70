import ReleaseRunner.Number.Integer
import ReleaseRunner.Pattern.Match
import ReleaseRunner.Version.Calendar
import ReleaseRunner.Version.Format

/-!
# Calendar versions

A version keeps the text of its format and the text of each number that it has. `CalVer.of`
reads one: the text has to match the format's pattern, the groups are given to the numbers in
the order of the tokens, and whatever is captured last after them is the modifier. A version
with year, month and day has to name a day of the calendar.

The text of a version is its format with every token replaced, one kind of token after the
other and all over the text.
-/

namespace ReleaseRunner.Version

open ReleaseRunner.Number ReleaseRunner.Text

/-- A version under a calendar format. -/
structure CalVer where
  pattern : String
  year : Option String
  month : Option String
  week : Option String
  day : Option String
  minor : Option String
  micro : Option String
  modifier : Option String
deriving Repr, DecidableEq

/-- Why a text is no version. -/
inductive VersionError where
  | blankFormat
  | blankVersion
  | format (error : FormatError)
  | badPattern (error : Pattern.Error)
  | mismatch (version format : String)
  | badNumber (error : IntegerError)
  | badMonth (month : Int)
  | notADate (version : String)
deriving Repr, DecidableEq

/-- The wording of the error. -/
def VersionError.message : VersionError → String
  | .blankFormat => "Argument 'fmt' must not be blank"
  | .blankVersion => "Argument 'version' must not be blank"
  | .format error => error.message
  | .badPattern .malformed => "malformed pattern"
  | .badPattern .tooManyRounds => "the repetition number is too large"
  | .mismatch version fmt => s!"Version {quoted version} does not match format {quoted fmt}"
  | .badNumber error => error.message
  | .badMonth month => s!"bad month number {month}; must be 1-12"
  | .notADate version => s!"Version {version} is not a valid date"

namespace CalVer

/-- The text of a number. -/
def slot (v : CalVer) : Slot → Option String
  | .year => v.year
  | .month => v.month
  | .week => v.week
  | .day => v.day
  | .minor => v.minor
  | .micro => v.micro

/-- The number in a slot; an empty slot counts as minus one. -/
def number (v : CalVer) (slot : Slot) : Except IntegerError Int :=
  match v.slot slot with
  | none => .ok (-1)
  | some text => readInteger text

/-! ## Text -/

/-- The text without its optional modifiers, with `skip` characters still to be left out. An
optional modifier runs from a bracket to the next closing one and ends with the word. -/
def dropOptional : Nat → List Char → List Char
  | _, [] => []
  | skip + 1, _ :: rest => dropOptional skip rest
  | 0, c :: rest =>
    let inner := rest.takeWhile (· != ']')
    if c == '[' && inner.length < rest.length && "MODIFIER".toList.isSuffixOf inner then
      dropOptional (inner.length + 1) rest
    else c :: dropOptional 0 rest

/-- What is replaced by what, in turn. -/
def replacements (v : CalVer) : List (String × Option String) :=
  (Token.all.map fun token => (token.text, v.slot token.slot)) ++
    [("MODIFIER", v.modifier), ("[", some ""), ("]", some "")]

/-- The text with replacements made in turn; a missing value replaces nothing. -/
def replaceInTurn (replacements : List (String × Option String)) (text : List Char) : List Char :=
  replacements.foldl
    (fun text (token, value) =>
      match value with
      | some value => replaceAll token.toList value.toList text
      | none => text)
    text

/-- The text of a version. -/
def text (v : CalVer) : String :=
  let pattern := v.pattern.toList
  let pattern := if v.modifier.isNone then dropOptional 0 pattern else pattern
  String.ofList (replaceInTurn v.replacements pattern)

/-- The version with its format, as it is shown in diagnostics. -/
def shown (v : CalVer) : String :=
  s!"CalVer({quoted v.pattern}, {quoted v.text})"

/-- The text for package managers that read a hyphen as the end of the version. -/
def hyphenFree (v : CalVer) : String :=
  v.text.map fun c => if c == '-' then '_' else c

/-! ## Making versions -/

/-- The text without blanks around it; nothing if nothing is left. -/
def cleaned (text : Option String) : Option String :=
  match text with
  | some s => if isBlankText s then none else some (strip s)
  | none => none

/-- A year, month and day have to be a day of the calendar. -/
def checkDate (v : CalVer) : Except VersionError Unit :=
  match v.year, v.month, v.day with
  | some _, some _, some _ => do
    let year ← (v.number .year).mapError .badNumber
    let month ← (v.number .month).mapError .badNumber
    match daysInMonth? year month with
    | none => throw (.badMonth month)
    | some days =>
      let day ← (v.number .day).mapError .badNumber
      if days < day then throw (.notADate v.text)
  | _, _, _ => return ()

/-- The version with the given texts for its numbers and its modifier. -/
def ofParts (pattern : String) (numbers : Slot → Option String) (modifier : Option String) :
    Except VersionError CalVer := do
  let v : CalVer := {
    pattern := pattern
    year := cleaned (numbers .year)
    month := cleaned (numbers .month)
    week := cleaned (numbers .week)
    day := cleaned (numbers .day)
    minor := cleaned (numbers .minor)
    micro := cleaned (numbers .micro)
    modifier := cleaned modifier }
  v.checkDate
  return v

/-- The text captured for a number: the group at the place of its token. -/
def captured (elements : List Element) (groups : List (Option (List Char))) (slot : Slot) :
    Option String :=
  match (elements.zip groups).find? (·.1.token.slot == slot) with
  | some (_, some text) => some (String.ofList text)
  | _ => none

/-- The version that a text writes in a format. -/
def of (fmt version : String) : Except VersionError CalVer := do
  if isBlankText fmt then throw .blankFormat
  if isBlankText version then throw .blankVersion
  let format ← (Format.read fmt).mapError .format
  let (pattern, count) ← format.pattern.mapError .badPattern
  match pattern.match? count (stripped version.toList) with
  | none => throw (.mismatch version (String.ofList format.text))
  | some groups =>
    let modifier := (groups.drop format.elements.length).getLast?.join
    ofParts fmt (captured format.elements groups) (modifier.map String.ofList)

/-- The placeholder of each token in the smallest version of a format. -/
def placeholders : List (String × Option String) :=
  [("YYYY", some "2000"), ("YY", some "0"), ("0Y", some "0"), ("MM", some "1"),
    ("0M", some "01"), ("WW", some "1"), ("0W", some "01"), ("DD", some "1"),
    ("0D", some "01"), ("MINOR", some "0"), ("MICRO", some "0"), ("MODIFIER", some "A"),
    ("[", some ""), ("]", some "")]

/-- The smallest version of a format. -/
def smallest (fmt : String) : Except VersionError CalVer :=
  if isBlankText fmt then .error .blankFormat
  else of fmt (String.ofList (replaceInTurn placeholders fmt.toList))

end CalVer

end ReleaseRunner.Version

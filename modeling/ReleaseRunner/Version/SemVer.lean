import ReleaseRunner.Pattern.Basic
import ReleaseRunner.Pattern.Match

/-!
# Semantic versions

Three numbers, then perhaps the identifiers of a pre-release after a hyphen, and those of a
build after a plus sign. Numbers have no leading nought, and neither have those identifiers of
a pre-release that are numbers. The digits after the first one may be decimal digits of any
script.
-/

namespace ReleaseRunner.Version.SemVer

open Pattern

/-- Any number of rounds, as many as there can be. -/
def many (p : Pattern) : Pattern := repeated p 0 none .greedy

/-- One round at least, as many as there can be. -/
def several (p : Pattern) : Pattern := repeated p 1 none .greedy

/-- The part may be missing. -/
def maybe (p : Pattern) : Pattern := repeated p 0 (some 1) .greedy

/-- A decimal digit of any script. -/
def digit : Pattern := char ⟨false, [.kind .digit true]⟩ false false

/-- A letter or a hyphen. -/
def letter : Pattern :=
  char ⟨false, [.range 0x61 0x7a, .range 0x41 0x5a, .single 0x2d]⟩ false false

/-- A digit, a letter or a hyphen. -/
def mark : Pattern :=
  char ⟨false, [.range 0x30 0x39, .range 0x61 0x7a, .range 0x41 0x5a, .single 0x2d]⟩ false false

/-- A number without a leading nought. -/
def number : Pattern := either (literal '0') (seq (between '1' '9') (many digit))

/-- An identifier of a pre-release: a number, or with a letter in it. -/
def preIdentifier : Pattern := either number (sequence [many digit, letter, many mark])

/-- Parts with points between them. -/
def dotted (p : Pattern) : Pattern := seq p (many (seq (literal '.') p))

/-- A semantic version. -/
def pattern : Pattern :=
  sequence [anchor .textStart, number, literal '.', number, literal '.', number,
    maybe (seq (literal '-') (dotted preIdentifier)),
    maybe (seq (literal '+') (dotted (several mark))),
    anchor .beforeLastBreak]

/-- The text is a semantic version. -/
def accepts (text : List Char) : Bool :=
  (pattern.match? 0 text).isSome

end ReleaseRunner.Version.SemVer

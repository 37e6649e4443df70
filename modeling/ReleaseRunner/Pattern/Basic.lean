import ReleaseRunner.Text.Alphanumeric
import ReleaseRunner.Text.Blank
import ReleaseRunner.Text.Case
import ReleaseRunner.Text.Digit

/-!
# Text patterns

Regular expressions with captured groups, as trees. A tree says what may be matched and in
which order alternatives are tried; `Pattern.Match` runs it and `Pattern.Reader` reads its
written form. Characters of a pattern are code points, because an escape can name one that is
no character.
-/

namespace ReleaseRunner

open ReleaseRunner.Text

namespace Pattern

/-- The modes under which a part of a pattern is read and matched. -/
structure Mode where
  caseless : Bool := false
  lineAnchors : Bool := false
  dotMatchesAll : Bool := false
  spaced : Bool := false
  ascii : Bool := false
deriving Repr, DecidableEq

/-- A named class of characters. -/
inductive Kind where
  | digit
  | space
  | word
deriving Repr, DecidableEq

/-- A part of a character class. -/
inductive ClassItem where
  | single (code : Nat)
  | range (low high : Nat)
  | kind (kind : Kind) (within : Bool)
deriving Repr, DecidableEq

/-- A set of characters: those that some item holds, or all others. -/
structure CharSet where
  negated : Bool
  items : List ClassItem
deriving Repr, DecidableEq

/-- A place in a text. -/
inductive Anchor where
  | textStart
  | textEnd
  | lineStart
  | lineEnd
  | beforeLastBreak
  | wordEdge (ascii : Bool)
  | noWordEdge (ascii : Bool)
deriving Repr, DecidableEq

/-- How many repetitions are tried first, and whether a choice is ever taken back. -/
inductive Appetite where
  | greedy
  | lazy
  | possessive
deriving Repr, DecidableEq

end Pattern

open Pattern in
/-- A regular expression. -/
inductive Pattern where
  | nothing
  | char (set : CharSet) (caseless ascii : Bool)
  | seq (first second : Pattern)
  | either (first second : Pattern)
  | repeated (body : Pattern) (least : Nat) (most : Option Nat) (appetite : Appetite)
  | capture (index : Nat) (body : Pattern)
  | atomic (body : Pattern)
  | ahead (wanted : Bool) (body : Pattern)
  | behind (wanted : Bool) (width : Nat) (body : Pattern)
  | again (index : Nat) (caseless ascii : Bool)
  | given (index : Nat) (yes no : Pattern)
  | anchor (anchor : Anchor)
deriving Repr, DecidableEq

namespace Pattern

/-- Patterns one after the other. -/
def sequence : List Pattern → Pattern
  | [] => nothing
  | [p] => p
  | p :: ps => seq p (sequence ps)

/-- Patterns of which the first that leads to a match is taken. -/
def choice : List Pattern → Pattern
  | [] => nothing
  | [p] => p
  | p :: ps => either p (choice ps)

/-- The character itself. -/
def literal (c : Char) : Pattern :=
  char ⟨false, [.single c.toNat]⟩ false false

/-- A character from the first to the second. -/
def between (low high : Char) : Pattern :=
  char ⟨false, [.range low.toNat high.toNat]⟩ false false

/-! ## Membership in a class -/

/-- The character belongs to a named class. -/
def Kind.holds (kind : Kind) (ascii : Bool) (c : Char) : Bool :=
  match kind with
  | .digit => if ascii then c.isDigit else isDigit c
  | .space =>
    if ascii then (9 ≤ c.toNat && c.toNat ≤ 13) || c == ' ' else isBlank c
  | .word => if ascii then c.isAlphanum || c == '_' else isWordChar c

/-- The small form of a character, beyond ASCII only where that is wanted. -/
def smallUnder (ascii : Bool) (c : Char) : Char :=
  if ascii then c.toLower else small c

/-- Two characters differ in case at most: they have the same small form, or small forms with
the same capital letter. -/
def sameLetter (ascii : Bool) (a b : Char) : Bool :=
  smallUnder ascii a == smallUnder ascii b ||
    (!ascii && match capital (small a), capital (small b) with
      | [x], [y] => x == y
      | _, _ => false)

/-- The character is one of the item's; without regard to case also where it is the same
letter as one of them. -/
def ClassItem.holds (caseless ascii : Bool) (c : Char) : ClassItem → Bool
  | .single code => c.toNat == code || (caseless && isLetterOf code)
  | .range low high =>
    (low ≤ c.toNat && c.toNat ≤ high) ||
      (caseless && (List.range' low (high + 1 - low)).any isLetterOf)
  | .kind k within => k.holds ascii c == within
where
  isLetterOf (code : Nat) : Bool := code.isValidChar && sameLetter ascii c (Char.ofNat code)

/-- The character is in the set. -/
def CharSet.holds (set : CharSet) (caseless ascii : Bool) (c : Char) : Bool :=
  set.items.any (·.holds caseless ascii c) != set.negated

/-! ## Widths -/

/-- The least and the greatest length of what a pattern matches. -/
structure Width where
  least : Nat
  most : Option Nat
deriving Repr, DecidableEq

/-- The sum of two limits, of which `none` is unbounded. -/
def addLimits : Option Nat → Option Nat → Option Nat
  | some a, some b => some (a + b)
  | _, _ => none

/-- The greater of two limits. -/
def maxLimit : Option Nat → Option Nat → Option Nat
  | some a, some b => some (max a b)
  | _, _ => none

/-- The product of two limits; nothing repeated without end is still nothing. -/
def mulLimits : Option Nat → Option Nat → Option Nat
  | some a, some b => some (a * b)
  | some 0, none => some 0
  | none, some 0 => some 0
  | _, _ => none

/-- The width of a pattern, given the widths of the groups that it refers to. -/
def width (groups : Nat → Width) : Pattern → Width
  | nothing => ⟨0, some 0⟩
  | char .. => ⟨1, some 1⟩
  | seq a b =>
    let (x, y) := (width groups a, width groups b)
    ⟨x.least + y.least, addLimits x.most y.most⟩
  | either a b =>
    let (x, y) := (width groups a, width groups b)
    ⟨min x.least y.least, maxLimit x.most y.most⟩
  | repeated body least most _ =>
    let x := width groups body
    ⟨least * x.least, mulLimits x.most most⟩
  | capture _ body => width groups body
  | atomic body => width groups body
  | ahead .. => ⟨0, some 0⟩
  | behind .. => ⟨0, some 0⟩
  | again index .. => groups index
  | given _ yes no =>
    let (x, y) := (width groups yes, width groups no)
    ⟨min x.least y.least, maxLimit x.most y.most⟩
  | anchor _ => ⟨0, some 0⟩

end Pattern

end ReleaseRunner

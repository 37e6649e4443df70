import ReleaseRunner.Json.Value

/-!
# Reading JSON

The grammar of RFC 8259 with three more numbers, `NaN`, `Infinity` and `-Infinity`. Whole
numbers may have any size. Nesting is limited to `nestingLimit` containers, which is also what
the reader recurs on; inside one container a count of the remaining characters bounds the loop
over its items.
-/

namespace ReleaseRunner.Json

open ReleaseRunner.Number

/-- The most containers that may stand one within the other. -/
def nestingLimit : Nat := 200

/-- The text without the blanks in front of it. -/
def skipSpace (s : List Char) : List Char :=
  s.dropWhile fun c => c == ' ' || c == '\t' || c == '\n' || c == '\r'

/-! ## Text -/

/-- The value of a hexadecimal digit. -/
def hexValue? (c : Char) : Option Nat :=
  if '0' ≤ c ∧ c ≤ '9' then some (c.toNat - 0x30)
  else if 'a' ≤ c ∧ c ≤ 'f' then some (c.toNat - 0x57)
  else if 'A' ≤ c ∧ c ≤ 'F' then some (c.toNat - 0x37)
  else none

/-- Where the scan of a text stands: between characters, after a backslash, within the digits
of a code unit, or between the two units of a pair. -/
inductive TextMode where
  | plain
  | escape
  | unit (high : Option Nat) (left value : Nat)
  | pair (high : Nat)
  | pairEscape (high : Nat)

/-- What the code unit `value` gives after the unit `high`: a character, or the wait for the
other unit of a pair. A unit of a pair that stands alone is no text. -/
def unitEnd (high : Option Nat) (value : Nat) : Option (Option Char × TextMode) :=
  match high with
  | none =>
    if 0xd800 ≤ value ∧ value < 0xdc00 then some (none, .pair value)
    else if 0xdc00 ≤ value ∧ value < 0xe000 then none
    else some (some (Char.ofNat value), .plain)
  | some h =>
    if 0xdc00 ≤ value ∧ value < 0xe000 then
      some (some (Char.ofNat (0x10000 + (h - 0xd800) * 0x400 + (value - 0xdc00))), .plain)
    else none

/-- The character of a one-letter escape. -/
def escapeOf : Char → Option Char
  | '"' => some '"'
  | '\\' => some '\\'
  | '/' => some '/'
  | 'b' => some '\x08'
  | 'f' => some '\x0c'
  | 'n' => some '\n'
  | 'r' => some '\r'
  | 't' => some '\t'
  | _ => none

/-- The text up to the closing quote, and what follows the quote. -/
def textFrom : TextMode → List Char → Option (List Char × List Char)
  | _, [] => none
  | .plain, c :: rest =>
    if c == '"' then some ([], rest)
    else if c == '\\' then textFrom .escape rest
    else if c.toNat < 0x20 then none
    else (textFrom .plain rest).map fun (cs, r) => (c :: cs, r)
  | .escape, c :: rest =>
    if c == 'u' then textFrom (.unit none 4 0) rest
    else match escapeOf c with
      | some d => (textFrom .plain rest).map fun (cs, r) => (d :: cs, r)
      | none => none
  | .unit high left value, c :: rest =>
    match hexValue? c with
    | none => none
    | some d =>
      let value := 16 * value + d
      if 1 < left then textFrom (.unit high (left - 1) value) rest
      else match unitEnd high value with
        | none => none
        | some (none, mode) => textFrom mode rest
        | some (some ch, mode) => (textFrom mode rest).map fun (cs, r) => (ch :: cs, r)
  | .pair high, c :: rest => if c == '\\' then textFrom (.pairEscape high) rest else none
  | .pairEscape high, c :: rest =>
    if c == 'u' then textFrom (.unit (some high) 4 0) rest else none

/-! ## Numbers -/

/-- The digits at the start of a text and what follows them. -/
def takeDigits (s : List Char) : List Char × List Char :=
  (s.takeWhile Char.isDigit, s.dropWhile Char.isDigit)

/-- The number that decimal digits write. -/
def digitsValue (digits : List Char) : Nat :=
  digits.foldl (fun n d => 10 * n + (d.toNat - 0x30)) 0

/-- The fraction after a whole part: its digits, none where there is no point. -/
def fraction? : List Char → Option (List Char × List Char)
  | '.' :: s =>
    let (digits, rest) := takeDigits s
    if digits.isEmpty then none else some (digits, rest)
  | s => some ([], s)

/-- The exponent after a number, none where there is no mark. -/
def exponent? : List Char → Option (Option Int × List Char)
  | c :: s =>
    if c == 'e' || c == 'E' then
      let (negative, s) := match s with
        | '-' :: s => (true, s)
        | '+' :: s => (false, s)
        | s => (false, s)
      let (digits, rest) := takeDigits s
      if digits.isEmpty then none
      else
        let value : Int := digitsValue digits
        some (some (if negative then -value else value), rest)
    else some (none, c :: s)
  | [] => some (none, [])

/-- The number at the start of a text, its sign taken already. -/
def number? (negative : Bool) (s : List Char) : Option (Json × List Char) := do
  let (whole, rest) := takeDigits s
  if whole.isEmpty || (whole.length > 1 && whole.head? == some '0') then none
  let (fraction, rest') ← fraction? rest
  let (exponent, rest'') ← exponent? rest'
  if fraction.isEmpty && exponent.isNone then
    let n : Int := digitsValue whole
    return (int (if negative then -n else n), rest)
  let value := Binary64.ofDecimal negative (digitsValue (whole ++ fraction))
    (exponent.getD 0 - fraction.length)
  return (float value, rest'')

/-! ## Values -/

/-- The text after a given word. -/
def afterWord? (word : String) (s : List Char) : Option (List Char) :=
  if word.toList.isPrefixOf s then some (s.drop word.length) else none

/-- A word or a number. -/
def scalar? : List Char → Option (Json × List Char)
  | 'n' :: s => (afterWord? "ull" s).map (null, ·)
  | 't' :: s => (afterWord? "rue" s).map (bool true, ·)
  | 'f' :: s => (afterWord? "alse" s).map (bool false, ·)
  | 'N' :: s => (afterWord? "aN" s).map (float .nan, ·)
  | 'I' :: s => (afterWord? "nfinity" s).map (float (.infinite false), ·)
  | '-' :: 'I' :: s => (afterWord? "nfinity" s).map (float (.infinite true), ·)
  | '-' :: s => number? true s
  | s => number? false s

/-- The items of an array up to its end, where `item` reads one. -/
def arrayItems? (item : List Char → Option (Json × List Char)) :
    Nat → List Char → Option (List Json × List Char)
  | 0, _ => none
  | fuel + 1, s => do
    let (value, s) ← item s
    match skipSpace s with
    | ',' :: s =>
      let (values, s) ← arrayItems? item fuel s
      return (value :: values, s)
    | ']' :: s => return ([value], s)
    | _ => none

/-- The members of an object up to its end. -/
def objectMembers? (item : List Char → Option (Json × List Char)) :
    Nat → List Char → Option (Members × List Char)
  | 0, _ => none
  | fuel + 1, s => do
    let '"' :: s := skipSpace s | none
    let (key, s) ← textFrom .plain s
    let ':' :: s := skipSpace s | none
    let (value, s) ← item s
    let first := (String.ofList key, value)
    match skipSpace s with
    | ',' :: s =>
      let (members, s) ← objectMembers? item fuel s
      return (first :: members, s)
    | '\x7d' :: s => return ([first], s)
    | _ => none

/-- The value at the start of a text, with at most so many containers one within the other. -/
def value? : Nat → List Char → Option (Json × List Char)
  | depth, s =>
    match skipSpace s with
    | '"' :: s => (textFrom .plain s).map fun (cs, r) => (text (String.ofList cs), r)
    | '[' :: s =>
      match depth with
      | 0 => none
      | depth + 1 =>
        match skipSpace s with
        | ']' :: s => some (array [], s)
        | s => (arrayItems? (value? depth) s.length s).map fun (vs, r) => (array vs, r)
    | '\x7b' :: s =>
      match depth with
      | 0 => none
      | depth + 1 =>
        match skipSpace s with
        | '\x7d' :: s => some (object [], s)
        | s => (objectMembers? (value? depth) s.length s).map fun (ms, r) => (object ms, r)
    | s => scalar? s

/-- The value that a whole text writes. -/
def read? (s : String) : Option Json := do
  let (value, rest) ← value? nestingLimit s.toList
  if (skipSpace rest).isEmpty then some value else none

end ReleaseRunner.Json

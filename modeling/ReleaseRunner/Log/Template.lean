import ReleaseRunner.Json.Shown

/-!
# Message templates

A message may hold places such as `%s` or `%05d` that are filled with values. A place is a
percent sign, an optional key in brackets, flags, a width, a precision and a letter; two
percent signs stand for one. Filling gives nothing when a place is malformed, when a value does
not suit its letter, or when the number of values does not suit the number of places; such a
message is never shown.
-/

namespace ReleaseRunner.Log

open ReleaseRunner.Number ReleaseRunner.Text

/-- The values of a template: a list, taken in order and used up exactly, or one object, whose
members are taken by key. -/
inductive Values where
  | list (items : List Json)
  | keyed (members : Members) (whole : Option Json)

/-- The flags, width and precision of a place. -/
structure Layout where
  left : Bool := false
  zero : Bool := false
  plus : Bool := false
  blank : Bool := false
  alternate : Bool := false
  width : Nat := 0
  precision : Option Nat := none

/-- The next value for a place without a key. -/
def Values.next? : Values → Option (Json × Values)
  | .list (item :: items) => some (item, .list items)
  | .list [] => none
  | .keyed members (some whole) => some (whole, .keyed members none)
  | .keyed _ none => none

/-- Every value has found its place. -/
def Values.done : Values → Bool
  | .list items => items.isEmpty
  | .keyed _ _ => true

/-! ## Reading a place -/

/-- The key up to the bracket that closes it, where brackets may be nested. -/
def takeKey : Nat → List Char → Option (List Char × List Char)
  | _, [] => none
  | depth, c :: rest =>
    if c == ')' then
      match depth with
      | 0 => some ([], rest)
      | depth + 1 => (takeKey depth rest).map fun (k, r) => (c :: k, r)
    else if c == '(' then (takeKey (depth + 1) rest).map fun (k, r) => (c :: k, r)
    else (takeKey depth rest).map fun (k, r) => (c :: k, r)

/-- The flags at the start of a text. -/
def takeFlags : Layout → List Char → Layout × List Char
  | layout, c :: rest =>
    if c == '-' then takeFlags { layout with left := true } rest
    else if c == '0' then takeFlags { layout with zero := true } rest
    else if c == '+' then takeFlags { layout with plus := true } rest
    else if c == ' ' then takeFlags { layout with blank := true } rest
    else if c == '#' then takeFlags { layout with alternate := true } rest
    else (layout, c :: rest)
  | layout, [] => (layout, [])

/-- The number that the digits at the start of a text write, nought where there are none. -/
def takeNumber (s : List Char) : Nat × List Char :=
  ((s.takeWhile Char.isDigit).foldl (fun n d => 10 * n + (d.toNat - 0x30)) 0,
    s.dropWhile Char.isDigit)

/-- A whole number among the values, for a width or a precision given as a star. -/
def Values.nextInt? (values : Values) : Option (Int × Values) :=
  match values.next? with
  | some (.int n, values) => some (n, values)
  | some (.bool b, values) => some (if b then 1 else 0, values)
  | _ => none

/-- The greatest width and the greatest precision of a place. -/
def layoutLimit : Nat := 2147483647

/-- The width at the start of a text. -/
def takeWidth (layout : Layout) (values : Values) :
    List Char → Option (Layout × Values × List Char)
  | '*' :: rest => do
    let (n, values) ← values.nextInt?
    guard (n.natAbs ≤ layoutLimit)
    return ({ layout with left := layout.left || n < 0, width := n.natAbs }, values, rest)
  | s => do
    let (n, rest) := takeNumber s
    guard (n ≤ layoutLimit)
    return ({ layout with width := n }, values, rest)

/-- The precision at the start of a text. -/
def takePrecision (layout : Layout) (values : Values) :
    List Char → Option (Layout × Values × List Char)
  | '.' :: '*' :: rest => do
    let (n, values) ← values.nextInt?
    guard (n.natAbs ≤ layoutLimit)
    return ({ layout with precision := some n.toNat }, values, rest)
  | '.' :: s => do
    let (n, rest) := takeNumber s
    guard (n ≤ layoutLimit)
    return ({ layout with precision := some n }, values, rest)
  | s => some (layout, values, s)

/-! ## Filling a place -/

/-- A text put into its width. -/
def padded (layout : Layout) (s : List Char) : List Char :=
  let gap := List.replicate (layout.width - s.length) ' '
  if layout.left then s ++ gap else gap ++ s

/-- A number put into its width: noughts go between the sign with its mark and the digits. -/
def paddedNumber (layout : Layout) (negative : Bool) (mark digits : List Char) : List Char :=
  let sign := if negative then ['-'] else if layout.plus then ['+']
    else if layout.blank then [' '] else []
  let head := sign ++ mark
  if layout.zero && !layout.left then
    head ++ List.replicate (layout.width - head.length - digits.length) '0' ++ digits
  else padded layout (head ++ digits)

/-- Digits filled up with noughts to the precision. -/
def withPrecision (layout : Layout) (digits : List Char) : List Char :=
  List.replicate (layout.precision.getD 0 - digits.length) '0' ++ digits

/-- The whole number of a value, with its fraction dropped where `fraction` allows one. -/
def wholeOf (fraction : Bool) : Json → Option Int
  | .int n => some n
  | .bool b => some (if b then 1 else 0)
  | .float x => if fraction then x.truncate? else none
  | _ => none

/-- The binary number of a value. -/
def floatOf : Json → Option Binary64
  | .int n => match Binary64.ofInt n with
    | .infinite _ => none
    | x => some x
  | .bool b => some (.ofInt (if b then 1 else 0))
  | .float x => some x
  | _ => none

/-- Capital letters throughout. -/
def shouted (s : List Char) : List Char := s.map Char.toUpper

/-- A quoted form with every character beyond ASCII escaped. -/
def asciiOnly (s : List Char) : List Char :=
  s.flatMap fun c => if c.toNat < 128 then [c] else codeEscape c

/-- A whole number in a base up to sixteen, with the mark of the base. -/
def filledWhole (layout : Layout) (n : Int) (base : Nat) (mark : List Char) : List Char :=
  paddedNumber layout (n < 0) mark (withPrecision layout (Nat.toDigits base n.natAbs))

/-- A number with a fraction, its sign taken off the text. -/
def filledFloat (layout : Layout) (text : String) : List Char :=
  match text.toList with
  | '-' :: digits => paddedNumber layout true [] digits
  | digits => paddedNumber layout false [] digits

/-- A character given by its number or by a text of one character. -/
def oneChar? : Json → Option Char
  | .int n =>
    if h : 0 ≤ n ∧ n.toNat.isValidChar then some (Char.ofNatAux n.toNat h.2) else none
  | .bool b => some (Char.ofNat (if b then 1 else 0))
  | .text s => match s.toList with
    | [c] => some c
    | _ => none
  | _ => none

/-- A value in the form of a letter. -/
def filled? (layout : Layout) (letter : Char) (value : Json) : Option (List Char) :=
  let cut (s : List Char) := padded layout (s.take (layout.precision.getD s.length))
  let places := layout.precision.getD 6
  let written (text : Binary64 → String) (x : Binary64) := filledFloat layout (text x)
  match letter with
  | 's' => if value.isWritable then some (cut value.plain) else none
  | 'r' => if value.isWritable then some (cut value.shown) else none
  | 'a' => if value.isWritable then some (cut (asciiOnly value.shown)) else none
  | 'd' | 'i' | 'u' =>
    if value.isWritable then (wholeOf true value).map (filledWhole layout · 10 []) else none
  | 'o' => (wholeOf false value).map
      (filledWhole layout · 8 (if layout.alternate then ['0', 'o'] else []))
  | 'x' => (wholeOf false value).map
      (filledWhole layout · 16 (if layout.alternate then ['0', 'x'] else []))
  | 'X' => (wholeOf false value).map fun n =>
      shouted (filledWhole layout n 16 (if layout.alternate then ['0', 'x'] else []))
  | 'f' => (floatOf value).map (written (·.fixed places layout.alternate))
  | 'F' => (floatOf value).map (shouted ∘ written (·.fixed places layout.alternate))
  | 'e' => (floatOf value).map (written (·.scientific places layout.alternate))
  | 'E' => (floatOf value).map (shouted ∘ written (·.scientific places layout.alternate))
  | 'g' => (floatOf value).map (written (·.general places layout.alternate))
  | 'G' => (floatOf value).map (shouted ∘ written (·.general places layout.alternate))
  | 'c' => (oneChar? value).map fun c => padded layout [c]
  | _ => none

/-- One place after its percent sign: the text it gives, the values left and the rest. -/
def place? (values : Values) (s : List Char) : Option (List Char × Values × List Char) := do
  let (values, s) ← match s, values with
    | '(' :: s, .keyed members _ => do
      let (key, s) ← takeKey 0 s
      let value ← Json.lookup members (String.ofList key)
      pure (.keyed members (some value), s)
    | '(' :: _, .list _ => none
    | s, values => pure (values, s)
  let (layout, s) := takeFlags {} s
  let (layout, values, s) ← takeWidth layout values s
  let (layout, values, s) ← takePrecision layout values s
  let s := match s with
    | c :: rest => if c == 'h' || c == 'l' || c == 'L' then rest else c :: rest
    | [] => []
  match s with
  | [] => none
  | letter :: rest =>
    let (value, values) ← values.next?
    let text ← filled? layout letter value
    return (text, values, rest)

/-- The text with its places filled, in at most so many places. -/
def fillFrom : Nat → Values → List Char → Option (List Char)
  | 0, _, _ => none
  | places + 1, values, s =>
    let (before, rest) := (s.takeWhile (· != '%'), s.dropWhile (· != '%'))
    match rest with
    | [] => if values.done then some before else none
    | _ :: '%' :: rest => (fillFrom places values rest).map (before ++ '%' :: ·)
    | _ :: rest => do
      let (text, values, rest) ← place? values rest
      return before ++ text ++ (← fillFrom places values rest)

/-- The message with its places filled. Without values the text is no template, so percent
signs stand for themselves; one object that is not empty gives its members by key. -/
def fill? (message : String) (values : List Json) : Option String :=
  match values with
  | [] => some message
  | [.object (m :: members)] =>
    (fillFrom (message.length + 1) (.keyed (m :: members) (some (.object (m :: members))))
      message.toList).map String.ofList
  | values => (fillFrom (message.length + 1) (.list values) message.toList).map String.ofList

end ReleaseRunner.Log

import ReleaseRunner.Json.Value
import ReleaseRunner.Text.Blank

/-!
# Environment files

Lines of the form `KEY=value`, with an optional `export` in front, blanks around the equals
sign, and comments. A value may stand between quotes, over several lines, with escapes; one
without quotes ends before a comment that blanks part from it. A key without a value defines
nothing. A statement that is malformed is skipped with the rest of its line and reported by
its line number. Within values, a name between `$` and braces stands for a variable, with a
default after `:-`.
-/

namespace ReleaseRunner.Config.Dotenv

open ReleaseRunner.Text

/-- A statement: a key with its value, if there is an equals sign, or a comment. -/
inductive Statement where
  | binding (key : String) (value : Option String)
  | nothing
deriving Repr, DecidableEq

/-- A blank within a line. -/
def isGap (c : Char) : Bool :=
  isBlank c && c != '\n' && c != '\r'

/-- A character within a line. -/
def inLine (c : Char) : Bool := c != '\n' && c != '\r'

/-- The text without the blanks in front. -/
def skipGap (s : List Char) : List Char := s.dropWhile isGap

/-- The text up to a quote that no backslash precedes, and what follows the quote. -/
def upToQuote (quote : Char) : List Char → Option (List Char × List Char)
  | [] => none
  | '\\' :: c :: rest =>
    if c == quote then
      match upToQuote quote rest with
      | some (cs, r) => some ('\\' :: c :: cs, r)
      | none => some (['\\'], rest)
    else (upToQuote quote (c :: rest)).map fun (cs, r) => ('\\' :: cs, r)
  | c :: rest =>
    if c == quote then some ([], rest)
    else (upToQuote quote rest).map fun (cs, r) => (c :: cs, r)

/-- The character of an escape between double quotes. -/
def escaped? : Char → Option Char
  | '\\' => some '\\'
  | '\'' => some '\''
  | '"' => some '"'
  | 'a' => some '\x07'
  | 'b' => some '\x08'
  | 'f' => some '\x0c'
  | 'n' => some '\n'
  | 'r' => some '\r'
  | 't' => some '\t'
  | 'v' => some '\x0b'
  | _ => none

/-- A quoted text with its escapes resolved: all of them between double quotes, those of the
backslash and the quote between single ones. -/
def unescaped (double : Bool) : List Char → List Char
  | '\\' :: c :: rest =>
    if double || c == '\\' || c == '\'' then
      match escaped? c with
      | some d => d :: unescaped double rest
      | none => '\\' :: unescaped double (c :: rest)
    else '\\' :: unescaped double (c :: rest)
  | c :: rest => c :: unescaped double rest
  | [] => []

/-- A value without quotes, up to the blanks in front of a comment. -/
def uncommented : List Char → List Char
  | [] => []
  | c :: rest =>
    if isBlank c && ((rest.dropWhile isBlank).head? == some '#') then []
    else c :: uncommented rest

/-- A reading with what follows it, or the text from where it got no further. -/
abbrev Step (α : Type) := Except (List Char) (α × List Char)

/-- A value. -/
def readValue : List Char → Step String
  | '\'' :: rest =>
    match upToQuote '\'' rest with
    | some (cs, r) => .ok (String.ofList (unescaped false cs), r)
    | none => .error ('\'' :: rest)
  | '"' :: rest =>
    match upToQuote '"' rest with
    | some (cs, r) => .ok (String.ofList (unescaped true cs), r)
    | none => .error ('"' :: rest)
  | s =>
    .ok (String.ofList (dropBlankEnd (uncommented (s.takeWhile inLine))), s.dropWhile inLine)

/-- The end of a line, with a comment in front of it if there is one. -/
def readLineEnd (s : List Char) : Except (List Char) (Unit × List Char) :=
  let s := match skipGap s with
    | '#' :: rest => rest.dropWhile inLine
    | _ => s
  match skipGap s with
  | [] => .ok ((), [])
  | '\r' :: '\n' :: rest => .ok ((), rest)
  | c :: rest => if inLine c then .error s else .ok ((), rest)

/-- A key, which may stand between single quotes. -/
def readKey : List Char → Step String
  | '\'' :: rest =>
    let key := rest.takeWhile (· != '\'')
    match rest.dropWhile (· != '\'') with
    | _ :: after => if key.isEmpty then .error ('\'' :: rest) else .ok (String.ofList key, after)
    | [] => .error ('\'' :: rest)
  | s =>
    let inKey (c : Char) := c != '=' && c != '#' && !isBlank c
    let key := s.takeWhile inKey
    if key.isEmpty then .error s else .ok (String.ofList key, s.dropWhile inKey)

/-- The text without the word `export` and the blanks after it. -/
def skipExport (s : List Char) : List Char :=
  let word := "export".toList
  let rest := s.drop word.length
  if word.isPrefixOf s && (rest.head?.map isGap).getD false then skipGap rest else s

/-- A statement at the start of a text that is not blank, with its line. -/
def readStatement (s : List Char) : Except (List Char) (Statement × List Char) :=
  match skipExport s with
  | '#' :: rest => do
    let ((), rest) ← readLineEnd ('#' :: rest)
    return (.nothing, rest)
  | s => do
    let (key, rest) ← readKey s
    match skipGap rest with
    | '=' :: rest =>
      let (value, rest) ← readValue (skipGap rest)
      let ((), rest) ← readLineEnd rest
      return (.binding key (some value), rest)
    | rest =>
      let ((), rest) ← readLineEnd rest
      return (.binding key none, rest)

/-- The text after the line at its start. -/
def skipLine (s : List Char) : List Char :=
  match s.dropWhile inLine with
  | '\r' :: '\n' :: rest => rest
  | _ :: rest => rest
  | [] => []

/-- The line breaks in a text. -/
def breaks (s : List Char) : Nat := s.countP (· == '\n')

/-- The statements of a text in order, and the numbers of the lines at which malformed ones
start. The count is at least the number of characters left. -/
def readFrom : Nat → Nat → List Char → List Statement × List Nat
  | 0, _, _ => ([], [])
  | fuel + 1, line, s =>
    let start := s.dropWhile isBlank
    if start.isEmpty then ([], [])
    else
      match readStatement start with
      | .ok (statement, rest) =>
        let (statements, bad) := readFrom fuel (line + (breaks s - breaks rest)) rest
        (statement :: statements, bad)
      | .error stopped =>
        let rest := skipLine stopped
        let (statements, bad) := readFrom fuel (line + (breaks s - breaks rest)) rest
        (statements, line :: bad)

/-! ## Variables within values -/

/-- A variable at the start of a text, after the dollar sign: its name, its default and the
rest. -/
def takeVariable? : List Char → Option (String × String × List Char)
  | '\x7b' :: rest =>
    let inName (c : Char) := c != '\x7d' && c != ':'
    let name := String.ofList (rest.takeWhile inName)
    match rest.dropWhile inName with
    | '\x7d' :: rest => some (name, "", rest)
    | ':' :: '-' :: rest =>
      match rest.dropWhile (· != '\x7d') with
      | _ :: after => some (name, String.ofList (rest.takeWhile (· != '\x7d')), after)
      | [] => none
    | _ => none
  | _ => none

/-- A value with its variables replaced, in at most so many steps. -/
def expandFrom (lookup : String → Option String) : Nat → List Char → List Char
  | 0, s => s
  | _, [] => []
  | fuel + 1, c :: rest =>
    match if c == '$' then takeVariable? rest else none with
    | some (name, missing, rest) =>
      ((lookup name).getD missing).toList ++ expandFrom lookup fuel rest
    | none => c :: expandFrom lookup fuel rest

/-- The variables that a file defines, in the order of their first definition. A value may
refer to those before it and to the environment; a variable without a value counts as empty
there. -/
def define (environment : List (String × String)) (statements : List Statement) :
    List (String × Option String) :=
  statements.foldl
    (fun defined statement =>
      match statement with
      | .nothing => defined
      | .binding key none => Json.member defined key none
      | .binding key (some value) =>
        let lookup (name : String) : Option String :=
          match defined.lookup name with
          | some value => some (value.getD "")
          | none => Json.lookup environment name
        let value := String.ofList (expandFrom lookup (value.length + 1) value.toList)
        Json.member defined key (some value))
    []

/-- An environment file that was read: its variables, and the lines that could not be read. -/
structure Reading where
  definitions : List (String × Option String)
  malformedLines : List Nat
deriving Repr, DecidableEq

/-- What an environment file defines. -/
def read (environment : List (String × String)) (text : String) : Reading :=
  let (statements, bad) := readFrom (text.length + 1) 1 text.toList
  ⟨define environment statements, bad⟩

end ReleaseRunner.Config.Dotenv

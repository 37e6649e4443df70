/-!
# Command words

A command is written as one text and started as a list of words. Blanks part words; single
quotes keep everything literal; between double quotes a backslash escapes itself and the
double quote only; outside quotes it escapes any character. Quotes make a word even when
nothing stands between them.
-/

namespace ReleaseRunner.Text

/-- Why a text has no words: a quote or an escape that nothing ends. -/
inductive WordsError where
  | openQuote
  | openEscape
deriving Repr, DecidableEq

/-- The wording of the two errors. -/
def WordsError.message : WordsError → String
  | .openQuote => "No closing quotation"
  | .openEscape => "No escaped character"

/-- A blank between words. -/
def isWordGap (c : Char) : Bool :=
  c == ' ' || c == '\t' || c == '\r' || c == '\n'

/-- Where the scan stands: outside quotes, between quotes, or after a backslash that stands
outside quotes (`none`) or between double quotes. -/
inductive WordMode where
  | plain
  | within (mark : Char)
  | escaped (mark : Option Char)
deriving Repr, DecidableEq

/-- The words from here on, given the word that is open (reversed) and the mode. -/
def wordsFrom : WordMode → Option (List Char) → List Char → Except WordsError (List (List Char))
  | .plain, word, [] => .ok (word.toList.map List.reverse)
  | .within _, _, [] => .error .openQuote
  | .escaped _, _, [] => .error .openEscape
  | .plain, word, c :: rest =>
    if isWordGap c then
      return word.toList.map List.reverse ++ (← wordsFrom .plain none rest)
    else if c == '\'' || c == '"' then wordsFrom (.within c) (some (word.getD [])) rest
    else if c == '\\' then wordsFrom (.escaped none) (some (word.getD [])) rest
    else wordsFrom .plain (some (c :: word.getD [])) rest
  | .within mark, word, c :: rest =>
    if c == mark then wordsFrom .plain word rest
    else if c == '\\' && mark == '"' then wordsFrom (.escaped (some mark)) word rest
    else wordsFrom (.within mark) (some (c :: word.getD [])) rest
  | .escaped none, word, c :: rest => wordsFrom .plain (some (c :: word.getD [])) rest
  | .escaped (some mark), word, c :: rest =>
    if c == '\\' || c == mark then wordsFrom (.within mark) (some (c :: word.getD [])) rest
    else wordsFrom (.within mark) (some (c :: '\\' :: word.getD [])) rest

/-- The words of a command. -/
def words (command : String) : Except WordsError (List String) :=
  (wordsFrom .plain none command.toList).map (·.map String.ofList)

end ReleaseRunner.Text

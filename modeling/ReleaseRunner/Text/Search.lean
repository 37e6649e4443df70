/-!
# Searching and replacing

Occurrences of one text in another, found from left to right and never overlapping.
-/

namespace ReleaseRunner.Text

/-- The first text occurs somewhere in the second. -/
def occursIn (part : List Char) : List Char → Bool
  | [] => part.isEmpty
  | c :: rest => part.isPrefixOf (c :: rest) || occursIn part rest

/-- Replacement with `skip` characters of a replaced occurrence still to be passed over. -/
def replaceAfter (old new : List Char) : Nat → List Char → List Char
  | _, [] => []
  | skip + 1, _ :: rest => replaceAfter old new skip rest
  | 0, c :: rest =>
    if old.isPrefixOf (c :: rest) then new ++ replaceAfter old new (old.length - 1) rest
    else c :: replaceAfter old new 0 rest

/-- Every occurrence of the nonempty text `old`, from the left, gives way to `new`. -/
def replaceAll (old new s : List Char) : List Char :=
  replaceAfter old new 0 s

/-- The texts with a separator between neighbours. -/
def joined (separator : String) (parts : List String) : String :=
  separator.intercalate parts

/-- The pieces of a text between the occurrences of a character. -/
def splitAt (mark : Char) : List Char → List (List Char)
  | [] => [[]]
  | c :: rest =>
    match splitAt mark rest with
    | [] => [[]]
    | piece :: pieces => if c == mark then [] :: piece :: pieces else (c :: piece) :: pieces

end ReleaseRunner.Text

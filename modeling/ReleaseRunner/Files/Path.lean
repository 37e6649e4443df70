import ReleaseRunner.Text.Search

/-!
# Paths

A path is its names in order, from the root or from the working directory. Empty names and
points are dropped when a path is read; a pair of points stays, because where it leads depends
on the tree. Exactly two slashes in front are a root of their own.
-/

namespace ReleaseRunner.Files

open ReleaseRunner.Text

/-- Where a path begins. -/
inductive Root where
  | here
  | top
  | doubled
deriving Repr, DecidableEq

/-- A path. -/
structure Path where
  root : Root
  names : List String
deriving Repr, DecidableEq

namespace Path

/-- The root of a written path. -/
def rootOf : List Char → Root
  | '/' :: '/' :: '/' :: _ => .top
  | '/' :: '/' :: _ => .doubled
  | '/' :: _ => .top
  | _ => .here

/-- The path that a text writes. -/
def read (s : String) : Path :=
  let cs := s.toList
  let names := (splitAt '/' cs).filter fun name => !name.isEmpty && name != ['.']
  ⟨rootOf cs, names.map String.ofList⟩

/-- The text of a path; the working directory itself is a point. -/
def text (p : Path) : String :=
  let names := joined "/" p.names
  match p.root with
  | .here => if p.names.isEmpty then "." else names
  | .top => "/" ++ names
  | .doubled => "//" ++ names

/-- The path of a name below a path. -/
def child (p : Path) (name : String) : Path :=
  { p with names := p.names ++ [name] }

/-- The path without its last name. A path without names is its own parent. -/
def parent (p : Path) : Path :=
  { p with names := p.names.dropLast }

end Path

end ReleaseRunner.Files

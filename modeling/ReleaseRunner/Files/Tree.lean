import ReleaseRunner.Failure
import ReleaseRunner.Files.Path

/-!
# The file tree

Folders and files by the names that lead to them from the top. The operations give the errors
of the system: which one is met first depends on how far a path can be followed.
-/

namespace ReleaseRunner.Files

open ReleaseRunner.Text

/-- What a file holds: a text, or bytes that are none. -/
inductive Content where
  | text (s : String)
  | binary
deriving Repr, DecidableEq

/-- What a file of the given bytes holds. -/
def Content.ofBytes (bytes : List UInt8) : Content :=
  match String.fromUTF8? ⟨bytes.toArray⟩ with
  | some s => .text s
  | none => .binary

/-- What stands at a place. -/
inductive Node where
  | folder
  | file (content : Content)
deriving Repr, DecidableEq

/-- The nodes of a tree by the names that lead to them, and the working directory. The top is
a folder always. -/
structure Tree where
  nodes : List (List String × Node)
  here : List String
deriving Repr

/-- Why the system refuses an operation. -/
inductive Refusal where
  | missing
  | taken
  | notAFolder
  | isAFolder
deriving Repr, DecidableEq

/-- The system's number and wording for a refusal. -/
def Refusal.wording : Refusal → Nat × String
  | missing => (2, "No such file or directory")
  | taken => (17, "File exists")
  | notAFolder => (20, "Not a directory")
  | isAFolder => (21, "Is a directory")

/-- The text of a system error, with the name of what it is about. -/
def systemText (number : Int) (wording : String) (name : Option String) : String :=
  s!"[Errno {number}] {wording}" ++
    (match name with
    | some name => s!": {quoted name}"
    | none => "")

/-- The failure of an operation on a path. -/
def Refusal.failure (refusal : Refusal) (path : Path) : Failure :=
  let kind := match refusal with
    | missing => FailureKind.fileMissing
    | taken => .fileExists
    | notAFolder => .notAFolder
    | isAFolder => .isAFolder
  let (number, wording) := refusal.wording
  .plain kind (systemText number wording (some path.text))

namespace Tree

/-- A tree with nothing but a working directory. -/
def empty : Tree := ⟨[(["work"], .folder)], ["work"]⟩

/-- The node at a place. -/
def node? (tree : Tree) (place : List String) : Option Node :=
  if place.isEmpty then some .folder else tree.nodes.lookup place

/-- The place that names lead to from a folder. Every name but the last has to be that of a
folder, and a pair of points leads back. -/
def walk (tree : Tree) : List String → List String → Except Refusal (List String)
  | place, [] => .ok place
  | place, ".." :: rest => walk tree place.dropLast rest
  | place, [name] => .ok (place ++ [name])
  | place, name :: rest =>
    match tree.node? (place ++ [name]) with
    | some .folder => walk tree (place ++ [name]) rest
    | some (.file _) => .error .notAFolder
    | none => .error .missing

/-- The place of a path. -/
def place (tree : Tree) (path : Path) : Except Refusal (List String) :=
  tree.walk (if path.root = .here then tree.here else []) path.names

/-- The tree with a node at a place. -/
def put (tree : Tree) (place : List String) (node : Node) : Tree :=
  { tree with nodes := (place, node) :: tree.nodes.filter (·.1 ≠ place) }

/-- The tree with a file at a place below the working directory and every folder above it, as a
tree is laid out at first. -/
def lay (tree : Tree) (names : List String) (content : Content) : Tree :=
  let place := tree.here ++ names
  let above := (List.range place.length).map fun n => place.take n
  let tree := above.foldl
    (fun tree folder => if (tree.node? folder).isSome then tree else tree.put folder .folder) tree
  tree.put place (.file content)

/-- The path leads to a folder. -/
def isFolder (tree : Tree) (path : Path) : Bool :=
  match tree.place path with
  | .ok place => tree.node? place == some .folder
  | .error _ => false

/-- The path leads to a file. -/
def isFile (tree : Tree) (path : Path) : Bool :=
  match tree.place path with
  | .ok place => match tree.node? place with
    | some (.file _) => true
    | _ => false
  | .error _ => false

/-- What the file at a path holds. -/
def content (tree : Tree) (path : Path) : Except Refusal Content := do
  let place ← tree.place path
  match tree.node? place with
  | some (.file content) => return content
  | some .folder => throw .isAFolder
  | none => throw .missing

/-- A text with its line breaks, of whichever kind, as line feeds. -/
def unifiedBreaks : List Char → List Char
  | '\r' :: '\n' :: rest => '\n' :: unifiedBreaks rest
  | c :: rest => (if c == '\r' then '\n' else c) :: unifiedBreaks rest
  | [] => []

/-- The text of the file at a path. -/
def readText (tree : Tree) (path : Path) : Except Failure String :=
  match tree.content path with
  | .ok (.text s) => .ok (String.ofList (unifiedBreaks s.toList))
  | .ok .binary => .error (.plain .undecodable "")
  | .error refusal => .error (refusal.failure path)

/-- The tree with a text written to a file, which is made if need be. -/
def writeText (tree : Tree) (path : Path) (s : String) : Except Failure Tree :=
  let written : Except Refusal Tree := do
    let place ← tree.place path
    match tree.node? place with
    | some .folder => throw .isAFolder
    | _ => return tree.put place (.file (.text s))
  written.mapError (·.failure path)

/-- The tree with a new folder, whose parent has to be there. -/
def makeOne (tree : Tree) (path : Path) : Except Refusal Tree := do
  let place ← tree.place path
  if (tree.node? place).isSome then throw .taken
  return tree.put place .folder

/-- The tree with a folder that may be there already. -/
def makeLast (tree : Tree) (path : Path) : Except Failure Tree :=
  match tree.makeOne path with
  | .ok tree => .ok tree
  | .error refusal =>
    if refusal ≠ .missing ∧ tree.isFolder path then .ok tree else .error (refusal.failure path)

/-- The tree with a folder and those above it, of which at most `depth` are made. -/
def makeFrom : Nat → Tree → Path → Except Failure Tree
  | 0, tree, path => tree.makeLast path
  | depth + 1, tree, path =>
    match tree.makeOne path with
    | .error .missing => do
      let tree ← makeFrom depth tree path.parent
      tree.makeLast path
    | _ => tree.makeLast path

/-- The tree with a folder and all those above it. -/
def makeFolder (tree : Tree) (path : Path) : Except Failure Tree :=
  makeFrom path.names.length tree path

end Tree

end ReleaseRunner.Files

/-!
# Paths

A path is a root and a list of components. Reading a path drops empty components and single dots, so
that a path has one written form; a component `..` stays, for it may lead through a link. Two
slashes at the start are a root of their own, and three or more are the same as one.
-/

namespace StraySemicolon

/-- Where a path starts. -/
inductive PathRoot where
  /-- At the working directory. -/
  | working
  /-- At the root, written with one slash. -/
  | single
  /-- At the root, written with two slashes. -/
  | double
deriving DecidableEq, Inhabited, Repr

/-- A path in normal form. -/
structure Path where
  root : PathRoot
  /-- The components, none of them empty or a single dot. -/
  parts : List String
deriving DecidableEq, Inhabited, Repr

namespace Path

/-- The parts of a text between slashes, empty ones included. -/
def splitSlashes : List Char → List (List Char)
  | [] => [[]]
  | character :: rest =>
    if character = '/' then [] :: splitSlashes rest
    else
      match splitSlashes rest with
      | [] => [[character]]
      | part :: parts => (character :: part) :: parts

/-- The components named by a text. -/
def components (text : String) : List String :=
  ((splitSlashes text.toList).filter fun part => part ≠ [] && part ≠ ['.']).map String.ofList

/-- The root that the slashes at the start of a text stand for. -/
def rootOf : List Char → PathRoot
  | '/' :: '/' :: '/' :: _ => .single
  | '/' :: '/' :: _ => .double
  | '/' :: _ => .single
  | _ => .working

/-- The path written as a text. -/
def ofText (text : String) : Path :=
  ⟨rootOf text.toList, components text⟩

/-- The written form of a path. The working directory is a dot. -/
def text (path : Path) : String :=
  let below := "/".intercalate path.parts
  match path.root with
  | .working => if path.parts.isEmpty then "." else below
  | .single => "/" ++ below
  | .double => "//" ++ below

/-- The path of an entry of a directory. -/
def child (path : Path) (name : String) : Path :=
  { path with parts := path.parts ++ [name] }

/-- Whether one list of components does not stand after another: the first difference decides, and a
list stands before those that continue it. -/
def partsNotAfter : List String → List String → Bool
  | [], _ => true
  | _ :: _, [] => false
  | first :: rest, other :: others =>
    if first = other then partsNotAfter rest others else decide (first < other)

/-- Paths below one directory are ordered component by component. -/
def notAfter (left right : Path) : Bool :=
  partsNotAfter left.parts right.parts

end Path

end StraySemicolon

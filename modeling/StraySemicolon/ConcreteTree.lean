import StraySemicolon.Tree

/-!
# Concrete trees

A concrete tree is what a parser of Java source hands over: every token and every grammar rule that
was applied, with its place in the source. The names of the rules are open-ended text. Rows, columns
and byte offsets count from 0; columns count bytes.

Two sorts of nodes carry no structure of their own. *Trivia* are comments and tokens that a parser
put in because they were missing from the source; they are dropped with everything below them. A
*wrapper* groups the members of an enum that follow the list of constants; its children count as
children of the node around it, through any number of nested wrappers.
-/

namespace StraySemicolon

/-- A place in a source text. -/
structure Point where
  row : Int
  column : Int
deriving DecidableEq, Inhabited, Repr

/-- A node of a concrete tree, without its children. -/
structure ConcreteNode where
  /-- The grammar rule or the token. -/
  type : String
  /-- Where the node begins. -/
  start : Point
  /-- The offset of the first byte of the node. -/
  startByte : Nat
  /-- The offset after the last byte of the node. -/
  stopByte : Nat
  /-- Whether the parser put this token in without finding it in the source. -/
  missing : Bool
deriving DecidableEq, Inhabited, Repr

/-- A source text with its grammatical structure. -/
abbrev ConcreteTree := Tree ConcreteNode

namespace ConcreteNode

/-- The rules that comments are read by. -/
def commentTypes : List String :=
  ["comment", "line_comment", "block_comment"]

/-- The rules whose children count as children of the node around them. -/
def wrapperTypes : List String :=
  ["enum_body_declarations"]

/-- The type of the nodes that stand for source text which no rule accepts. -/
def errorType : String :=
  "ERROR"

/-- Comments and missing tokens carry no structure. -/
def isTrivia (node : ConcreteNode) : Bool :=
  commentTypes.contains node.type || node.missing

/-- A wrapper only groups its children. -/
def isWrapper (node : ConcreteNode) : Bool :=
  wrapperTypes.contains node.type

/-- A node of source text that no rule accepts. -/
def isError (node : ConcreteNode) : Bool :=
  node.type == errorType

end ConcreteNode

namespace ConcreteTree

mutual

/-- What a child contributes to the members of the node around it: nothing if it is trivia, its own
members if it is a wrapper, and itself otherwise. -/
def contribution : ConcreteTree → List ConcreteTree
  | .node label children =>
    if label.isTrivia then []
    else if label.isWrapper then membersOf children
    else [.node label children]

/-- The members among a list of children, in source order. -/
def membersOf : List ConcreteTree → List ConcreteTree
  | [] => []
  | child :: rest => contribution child ++ membersOf rest

end

/-- The members of a node: its children without trivia and with every wrapper replaced by its own
members. -/
def members (tree : ConcreteTree) : List ConcreteTree :=
  membersOf tree.children

mutual

theorem size_contribution_le : ∀ tree : ConcreteTree,
    Tree.sizeAll (contribution tree) ≤ tree.size
  | .node label children => by
    rw [contribution]
    have below := size_membersOf_le children
    split
    · simp [Tree.sizeAll]
    · split
      · simp only [Tree.size]
        omega
      · simp [Tree.sizeAll]

theorem size_membersOf_le : ∀ trees : List ConcreteTree,
    Tree.sizeAll (membersOf trees) ≤ Tree.sizeAll trees
  | [] => by simp [membersOf]
  | child :: rest => by
    have here := size_contribution_le child
    have below := size_membersOf_le rest
    simp only [membersOf, Tree.sizeAll_append, Tree.sizeAll]
    omega

end

/-- A node is larger than its members together. -/
theorem size_members_lt (tree : ConcreteTree) : Tree.sizeAll tree.members < tree.size := by
  have below := size_membersOf_le tree.children
  have here := tree.size_eq
  simp only [members]
  omega

end ConcreteTree

end StraySemicolon

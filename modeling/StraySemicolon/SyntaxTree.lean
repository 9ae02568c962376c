import StraySemicolon.ConcreteTree
import StraySemicolon.Kind
import StraySemicolon.Tree.Cursor
import StraySemicolon.Tree.Parents

/-!
# Syntax trees

A syntax tree is a concrete tree without trivia and wrappers, with every node tagged by its kind.
Lines and columns count from 1.

`SyntaxTree.ofConcrete` converts with an explicit list of pending nodes, the most recent one first,
so that deep nesting costs no call depth. Every entry made on the way names its parent by number,
and the tree is put together at the end. `SyntaxTree.below` is the same conversion by recursion on
the concrete tree.
-/

namespace StraySemicolon

/-- A node of a syntax tree, without its children. -/
structure SyntaxNode where
  kind : Kind
  /-- The grammar rule or token that the node was read by. -/
  typeName : String
  line : Int
  column : Int
deriving DecidableEq, Inhabited, Repr

/-- A tree of nodes that are tagged by their kind. -/
abbrev SyntaxTree := Tree SyntaxNode

/-- A place in a syntax tree. -/
abbrev Place := Cursor SyntaxNode

namespace Place

/-- The kind of the node at a place. -/
def kind (place : Place) : Kind :=
  place.label.kind

/-- The kinds of the enclosing nodes, the nearest one first. -/
def enclosingKinds (place : Place) : List Kind :=
  place.enclosing.map SyntaxNode.kind

end Place

/-- The syntax node of a concrete node that is listed below a node of the given kind. -/
def SyntaxNode.ofConcrete (parent : Option Kind) (node : ConcreteNode) : SyntaxNode where
  kind := .ofType node.type parent
  typeName := node.type
  line := node.start.row + 1
  column := node.start.column + 1

namespace SyntaxTree

/-- The places of the nodes of the given kinds, in source order. -/
def ofKinds (tree : SyntaxTree) (kinds : List Kind) : List Place :=
  (Cursor.top tree).walk.filter fun place => kinds.contains (Place.kind place)

/-- A concrete tree that has been entered but whose members have not. -/
structure Pending where
  /-- The number under which the tree was entered. -/
  number : Nat
  /-- The kind it was entered with. -/
  kind : Kind
  tree : ConcreteTree

/-- The number of concrete nodes that are pending. -/
def weight : List Pending → Nat
  | [] => 0
  | entry :: pending => entry.tree.size + weight pending

theorem weight_append (left right : List Pending) :
    weight (left ++ right) = weight left + weight right := by
  induction left with
  | nil => simp [weight]
  | cons entry rest inductionHypothesis =>
    simp [weight, inductionHypothesis, Nat.add_assoc]

theorem weight_reverse (pending : List Pending) : weight pending.reverse = weight pending := by
  induction pending with
  | nil => rfl
  | cons entry rest inductionHypothesis =>
    simp [weight, weight_append, inductionHypothesis, Nat.add_comm]

/-- The members of a pending tree, entered under consecutive numbers. -/
def Pending.enter (parent : Kind) : Nat → List ConcreteTree → List Pending
  | _, [] => []
  | number, member :: rest =>
    ⟨number, .ofType member.label.type (some parent), member⟩ :: enter parent (number + 1) rest

theorem weight_enter (parent : Kind) (number : Nat) (members : List ConcreteTree) :
    weight (Pending.enter parent number members) = Tree.sizeAll members := by
  induction members generalizing number with
  | nil => rfl
  | cons first rest inductionHypothesis =>
    simp [Pending.enter, weight, Tree.sizeAll, inductionHypothesis]

/-- The nodes entered from the pending ones on, each with the number of its parent. The most recent
pending tree is taken first; its members are entered in order and become pending themselves. -/
def enterAll (number : Nat) : List Pending → List (Nat × SyntaxNode)
  | [] => []
  | ⟨parent, kind, tree⟩ :: pending =>
    let members := tree.members
    members.map (fun member => (parent, SyntaxNode.ofConcrete (some kind) member.label)) ++
      enterAll (number + members.length)
        ((Pending.enter kind number members).reverse ++ pending)
termination_by pending => weight pending
decreasing_by
  have smaller := ConcreteTree.size_members_lt tree
  rw [weight_append, weight_reverse, weight_enter]
  simp only [weight]
  omega

/-- The syntax tree of a concrete tree. The root is kept whatever it is. -/
def ofConcrete (tree : ConcreteTree) : SyntaxTree :=
  let root := SyntaxNode.ofConcrete none tree.label
  Tree.ofParents root (enterAll 1 [⟨0, root.kind, tree⟩])

mutual

/-- The syntax trees that a child contributes to a node of the given kind. -/
def contribution (parent : Kind) : ConcreteTree → List SyntaxTree
  | .node label children =>
    if label.isTrivia then []
    else if label.isWrapper then below parent children
    else [.node (.ofConcrete (some parent) label)
      (below (.ofType label.type (some parent)) children)]

/-- The syntax trees below a node of the given kind, from its concrete children: trivia are dropped
with all that is below them, wrappers are replaced by what their children contribute, and every
other child is converted. -/
def below (parent : Kind) : List ConcreteTree → List SyntaxTree
  | [] => []
  | child :: rest => contribution parent child ++ below parent rest

end

end SyntaxTree

end StraySemicolon

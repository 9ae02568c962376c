import StraySemicolon.Tree

/-!
# Cursors

A cursor is a place in a tree: the subtree in focus and the frames above it, innermost first. A
frame holds the label of one enclosing node and the siblings to either side. Every cursor therefore
lies in exactly one tree (`Cursor.tree`), and a node can be told from an equal node elsewhere in
that tree.

The moves answer nothing when they have no target. `walk` lists all cursors at or below a cursor in
preorder, with an explicit stack.
-/

namespace StraySemicolon

/-- One step of the way up: the enclosing node's label and the siblings left behind. -/
structure Frame (α : Type) where
  /-- The label of the enclosing node. -/
  label : α
  /-- The siblings before the focus, the nearest one first. -/
  before : List (Tree α)
  /-- The siblings after the focus, in order. -/
  after : List (Tree α)
deriving DecidableEq

/-- A place in a tree. -/
structure Cursor (α : Type) where
  /-- The subtree at this place. -/
  focus : Tree α
  /-- The enclosing nodes, the nearest one first. -/
  above : List (Frame α)
deriving DecidableEq

namespace Cursor

variable {α : Type}

/-- The place of the root. -/
def top (tree : Tree α) : Cursor α :=
  ⟨tree, []⟩

/-- The label of the node in focus. -/
def label (place : Cursor α) : α :=
  place.focus.label

/-- The labels of the enclosing nodes, the nearest one first. -/
def enclosing (place : Cursor α) : List α :=
  place.above.map Frame.label

/-- The number of siblings before the focus. -/
def index : Cursor α → Nat
  | ⟨_, []⟩ => 0
  | ⟨_, frame :: _⟩ => frame.before.length

/-- The node around the focus. The root has none. -/
def parent : Cursor α → Option (Cursor α)
  | ⟨_, []⟩ => none
  | ⟨focus, frame :: above⟩ =>
    some ⟨.node frame.label (frame.before.reverse ++ focus :: frame.after), above⟩

/-- The sibling just after the focus. The root has none. -/
def next : Cursor α → Option (Cursor α)
  | ⟨focus, ⟨label, before, sibling :: after⟩ :: above⟩ =>
    some ⟨sibling, ⟨label, focus :: before, after⟩ :: above⟩
  | _ => none

/-- The sibling just before the focus. The root has none. -/
def previous : Cursor α → Option (Cursor α)
  | ⟨focus, ⟨label, sibling :: before, after⟩ :: above⟩ =>
    some ⟨sibling, ⟨label, before, focus :: after⟩ :: above⟩
  | _ => none

/-- The places of a list of siblings that continues a node whose earlier children are `before`. -/
def siblings (label : α) (above : List (Frame α)) :
    List (Tree α) → List (Tree α) → List (Cursor α)
  | _, [] => []
  | before, child :: after =>
    ⟨child, ⟨label, before, after⟩ :: above⟩ :: siblings label above (child :: before) after

/-- The places of the children, in order. -/
def children (place : Cursor α) : List (Cursor α) :=
  siblings place.label place.above [] place.focus.children

/-- The first child. -/
def first (place : Cursor α) : Option (Cursor α) :=
  match place.focus with
  | .node label (child :: after) => some ⟨child, ⟨label, [], after⟩ :: place.above⟩
  | .node _ [] => none

/-- The last child. -/
def last (place : Cursor α) : Option (Cursor α) :=
  match place.focus.children.reverse with
  | child :: before => some ⟨child, ⟨place.label, before, []⟩ :: place.above⟩
  | [] => none

/-- The earliest child whose label satisfies a test. -/
def find (place : Cursor α) (wanted : α → Bool) : Option (Cursor α) :=
  place.children.find? fun child => wanted child.label

/-- A move of a cursor. -/
inductive Move (α : Type) where
  | next
  | previous
  | first
  | last
  | parent
  /-- To the earliest child whose label satisfies a test. -/
  | find (wanted : α → Bool)

/-- The target of a move, if there is one. -/
def target (place : Cursor α) : Move α → Option (Cursor α)
  | .next => place.next
  | .previous => place.previous
  | .first => place.first
  | .last => place.last
  | .parent => place.parent
  | .find wanted => place.find wanted

/-- The place after a move. A move without a target stays where it is. -/
def move (place : Cursor α) (step : Move α) : Cursor α :=
  (place.target step).getD place

/-- The place after a run of moves. -/
def follow (place : Cursor α) (steps : List (Move α)) : Cursor α :=
  steps.foldl move place

/-- The ancestors of a focus with the given frames, the nearest one first. -/
def ancestorsAbove (focus : Tree α) : List (Frame α) → List (Cursor α)
  | [] => []
  | frame :: above =>
    let enclosing := Tree.node frame.label (frame.before.reverse ++ focus :: frame.after)
    ⟨enclosing, above⟩ :: ancestorsAbove enclosing above

/-- The proper ancestors, the nearest one first and the root last. -/
def ancestors (place : Cursor α) : List (Cursor α) :=
  ancestorsAbove place.focus place.above

/-- The whole tree that a place with the given frames lies in. -/
def treeAbove (focus : Tree α) : List (Frame α) → Tree α
  | [] => focus
  | frame :: above =>
    treeAbove (.node frame.label (frame.before.reverse ++ focus :: frame.after)) above

/-- The whole tree that a place lies in. -/
def tree (place : Cursor α) : Tree α :=
  treeAbove place.focus place.above

/-- The number of nodes at or below the places on a stack. -/
def weight : List (Cursor α) → Nat
  | [] => 0
  | place :: stack => place.focus.size + weight stack

theorem weight_append (left right : List (Cursor α)) :
    weight (left ++ right) = weight left + weight right := by
  induction left with
  | nil => simp [weight]
  | cons place rest inductionHypothesis =>
    simp [weight, inductionHypothesis, Nat.add_assoc]

theorem weight_siblings (label : α) (above : List (Frame α)) (before trees : List (Tree α)) :
    weight (siblings label above before trees) = Tree.sizeAll trees := by
  induction trees generalizing before with
  | nil => rfl
  | cons first rest inductionHypothesis =>
    simp [siblings, weight, Tree.sizeAll, inductionHypothesis]

/-- The places at or below those on a stack, the top of the stack first. One step takes the top off,
lists it and puts its children in its place. -/
def walkAll : List (Cursor α) → List (Cursor α)
  | [] => []
  | place :: stack => place :: walkAll (place.children ++ stack)
termination_by stack => weight stack
decreasing_by
  rw [weight_append, children, weight_siblings]
  simp only [weight, Tree.size_eq place.focus]
  omega

/-- The places at or below a place in preorder, the place itself first. -/
def walk (place : Cursor α) : List (Cursor α) :=
  walkAll [place]

theorem walkAll_append (left right : List (Cursor α)) :
    walkAll (left ++ right) = walkAll left ++ walkAll right := by
  fun_induction walkAll left with
  | case1 => rfl
  | case2 place stack inductionHypothesis =>
    rw [List.cons_append, walkAll]
    simp [← inductionHypothesis]

end Cursor

end StraySemicolon

/-!
# Ordered trees

A tree carries one label per node and keeps the children of a node in order. Both trees of this
library have this shape: the concrete tree that stands for a source text, and the syntax tree that
the checks look at.

Preorder is listed with an explicit stack, so that the depth of a tree costs no call depth. The
measure of the stack is the number of nodes still to be listed; every step lists one of them.
`preorder_node` gives the recursive reading of the result.
-/

namespace StraySemicolon

/-- A finite tree whose nodes have labels and ordered children. There is no empty tree. -/
inductive Tree (α : Type) where
  | node (label : α) (children : List (Tree α))
deriving Inhabited

namespace Tree

variable {α β : Type}

mutual

/-- Equality of trees, decided label by label. -/
def decideEq [DecidableEq α] : (left right : Tree α) → Decidable (left = right)
  | .node label children, .node other others =>
    have := decideEqAll children others
    decidable_of_iff (label = other ∧ children = others) (by simp)

/-- Equality of lists of trees. -/
def decideEqAll [DecidableEq α] : (left right : List (Tree α)) → Decidable (left = right)
  | [], [] => isTrue rfl
  | [], _ :: _ => isFalse (by simp)
  | _ :: _, [] => isFalse (by simp)
  | first :: rest, other :: others =>
    have := decideEq first other
    have := decideEqAll rest others
    decidable_of_iff (first = other ∧ rest = others) (by simp)

end

instance [DecidableEq α] : DecidableEq (Tree α) :=
  decideEq

/-- The label of the root. -/
def label : Tree α → α
  | .node label _ => label

/-- The trees below the root, in order. -/
def children : Tree α → List (Tree α)
  | .node _ children => children

mutual

/-- The number of nodes of a tree. -/
def size : Tree α → Nat
  | .node _ children => sizeAll children + 1

/-- The number of nodes of a list of trees. -/
def sizeAll : List (Tree α) → Nat
  | [] => 0
  | first :: rest => size first + sizeAll rest

end

mutual

/-- The tree of the same shape with every label replaced by its image. -/
def map (f : α → β) : Tree α → Tree β
  | .node label children => .node (f label) (mapAll f children)

/-- The images of the trees of a list, in order. -/
def mapAll (f : α → β) : List (Tree α) → List (Tree β)
  | [] => []
  | first :: rest => map f first :: mapAll f rest

end

theorem mapAll_append (f : α → β) (left right : List (Tree α)) :
    mapAll f (left ++ right) = mapAll f left ++ mapAll f right := by
  induction left with
  | nil => rfl
  | cons first rest inductionHypothesis => simp [mapAll, inductionHypothesis]

theorem size_eq (tree : Tree α) : tree.size = sizeAll tree.children + 1 := by
  cases tree
  rfl

theorem sizeAll_append (left right : List (Tree α)) :
    sizeAll (left ++ right) = sizeAll left + sizeAll right := by
  induction left with
  | nil => simp [sizeAll]
  | cons first rest inductionHypothesis => simp [sizeAll, inductionHypothesis, Nat.add_assoc]

/-- The labels of the trees on a stack, each tree in preorder, the top of the stack first. One step
takes the top off, lists its label and puts its children in its place. -/
def preorderAll : List (Tree α) → List α
  | [] => []
  | tree :: stack => tree.label :: preorderAll (tree.children ++ stack)
termination_by stack => sizeAll stack
decreasing_by
  simp only [sizeAll, sizeAll_append, size_eq tree]
  omega

/-- The labels of a tree, every node before its children and the children in order. -/
def preorder (tree : Tree α) : List α :=
  preorderAll [tree]

theorem preorderAll_append (left right : List (Tree α)) :
    preorderAll (left ++ right) = preorderAll left ++ preorderAll right := by
  fun_induction preorderAll left with
  | case1 => rfl
  | case2 tree stack inductionHypothesis =>
    rw [List.cons_append, preorderAll]
    simp [← inductionHypothesis]

/-- A node comes first and is followed by what lies below each child in turn. -/
theorem preorder_node (label : α) (children : List (Tree α)) :
    preorder (.node label children) = label :: children.flatMap preorder := by
  have below : preorderAll children = children.flatMap preorder := by
    induction children with
    | nil => simp [preorderAll]
    | cons first rest inductionHypothesis =>
      have split := preorderAll_append [first] rest
      rw [List.singleton_append] at split
      rw [split, inductionHypothesis]
      rfl
  rw [preorder, preorderAll]
  simp [Tree.label, Tree.children, below]

end Tree

end StraySemicolon

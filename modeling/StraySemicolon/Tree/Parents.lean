import StraySemicolon.Tree

/-!
# Trees listed by parents

A tree can be written as the label of its root and a list of further nodes, each with the number of
its parent. The root is number 0 and the list goes on from number 1. A parent comes before its
children, and children of one node stand in their order.

`Tree.ofParents` hangs the listed nodes from the last to the first, so every node is complete before
it is hung below its parent. An entry that does not name an earlier node is left out of the tree.
-/

namespace StraySemicolon.Tree

variable {α : Type}

/-- The children collected for a number. -/
def collected (slots : Array (List (Tree α))) (number : Nat) : List (Tree α) :=
  slots[number]?.getD []

/-- Hangs one listed node, with the children collected for it so far, before the other children
collected for its parent. -/
def hang (slots : Array (List (Tree α))) (number parent : Nat) (label : α) :
    Array (List (Tree α)) :=
  slots.modify parent (Tree.node label (collected slots number) :: ·)

/-- The children collected for every number, after all nodes of a list that starts at `number` are
hung. -/
def hangAll (slots : Array (List (Tree α))) : Nat → List (Nat × α) → Array (List (Tree α))
  | _, [] => slots
  | number, (parent, label) :: rest =>
    hang (hangAll slots (number + 1) rest) number parent label

/-- The tree of a root and of further nodes, each listed with the number of its parent. -/
def ofParents (root : α) (others : List (Nat × α)) : Tree α :=
  .node root (collected (hangAll (Array.replicate (others.length + 1) []) 1 others) 0)

/-- Hanging a node touches what is collected for its parent and nothing else. -/
theorem collected_hang (slots : Array (List (Tree α))) (number parent : Nat) (label : α)
    (stored : parent < slots.size) (asked : Nat) :
    collected (hang slots number parent label) asked =
      if asked = parent then .node label (collected slots number) :: collected slots asked
      else collected slots asked := by
  unfold hang collected
  rw [Array.getElem?_modify]
  by_cases same : parent = asked
  · subst same
    simp [Array.getElem?_eq_getElem stored]
  · simp [same, Ne.symm same]

theorem size_hangAll (slots : Array (List (Tree α))) (number : Nat) (others : List (Nat × α)) :
    (hangAll slots number others).size = slots.size := by
  induction others generalizing number with
  | nil => rfl
  | cons entry rest inductionHypothesis => simp [hangAll, hang, inductionHypothesis]

/-- The later part of a list is hung first. -/
theorem hangAll_append (slots : Array (List (Tree α))) (number : Nat)
    (first second : List (Nat × α)) :
    hangAll slots number (first ++ second) =
      hangAll (hangAll slots (number + first.length) second) number first := by
  induction first generalizing number with
  | nil => rfl
  | cons entry rest inductionHypothesis =>
    simp only [List.cons_append, hangAll, inductionHypothesis, List.length_cons]
    rw [Nat.add_right_comm, Nat.add_assoc]

/-- Nodes listed one after the other with the same parent become its first children, in order, each
with what is collected for it. -/
theorem collected_hangAll_siblings (slots : Array (List (Tree α))) (number parent : Nat)
    (labels : List α) (earlier : parent < number) (stored : parent < slots.size) (asked : Nat) :
    collected (hangAll slots number (labels.map fun label => (parent, label))) asked =
      (if asked = parent then
        (labels.zipIdx number).map fun listed => Tree.node listed.1 (collected slots listed.2)
      else []) ++ collected slots asked := by
  induction labels generalizing number asked with
  | nil => simp [hangAll]
  | cons label rest inductionHypothesis =>
    have untouched := inductionHypothesis (number + 1) (by omega) number
    rw [if_neg (by omega), List.nil_append] at untouched
    have below := inductionHypothesis (number + 1) (by omega) asked
    simp only [List.map_cons, hangAll]
    rw [collected_hang _ _ _ _ (by rw [size_hangAll]; exact stored), untouched, below]
    by_cases same : asked = parent
    · simp [same]
    · simp [same]

end StraySemicolon.Tree

import Mathlib.Data.List.Find
import StraySemicolon.Proofs.Cursor

/-!
# Linked nodes

Nodes can be kept as objects that refer to one another: each holds its parent, its index among the
children of that parent, and its children. Then nothing in the shape of the data ties the three
together. A move to a sibling goes up and comes down again at a stored index, so it is right only as
long as the links agree.

`Links.Correct` says that they do. All laws of the moves follow from it, at any node and hence after
any run of moves, for a run never leaves the nodes below the root. The places of a tree are linked
correctly, and the moves of a cursor are the moves along these links.
-/

namespace StraySemicolon

/-- Nodes that hold a label and refer to their parent and their children. -/
structure Links (α ν : Type) where
  label : ν → α
  /-- The node around a node. -/
  parent : ν → Option ν
  /-- The position that a node has been given among the children of its parent. -/
  index : ν → Nat
  /-- The children, in order. -/
  children : ν → List ν

namespace Links

variable {α ν : Type} (links : Links α ν)

/-! ## Moves -/

/-- The child at a position of the node around a node. -/
def siblingAt (node : ν) (position : Nat) : Option ν :=
  (links.parent node).bind fun enclosing => (links.children enclosing)[position]?

/-- The sibling at the next index. -/
def next (node : ν) : Option ν :=
  links.siblingAt node (links.index node + 1)

/-- The sibling at the index before. -/
def previous (node : ν) : Option ν :=
  if links.index node = 0 then none else links.siblingAt node (links.index node - 1)

/-- The first child. -/
def first (node : ν) : Option ν :=
  (links.children node).head?

/-- The last child. -/
def last (node : ν) : Option ν :=
  (links.children node).getLast?

/-- The earliest child whose label satisfies a test. -/
def find (node : ν) (wanted : α → Bool) : Option ν :=
  (links.children node).find? fun child => wanted (links.label child)

/-- The target of a move along the links, if there is one. -/
def target (node : ν) : Cursor.Move α → Option ν
  | .next => links.next node
  | .previous => links.previous node
  | .first => links.first node
  | .last => links.last node
  | .parent => links.parent node
  | .find wanted => links.find node wanted

/-- The node after a move. A move without a target stays where it is. -/
def move (node : ν) (step : Cursor.Move α) : ν :=
  (links.target node step).getD node

/-- The node after a run of moves. -/
def follow (node : ν) (steps : List (Cursor.Move α)) : ν :=
  steps.foldl links.move node

/-- From a node, or from none, the move to the next sibling can be repeated through exactly the
listed nodes, and has no target at the end. -/
inductive Visits : Option ν → List ν → Prop where
  | done : Visits none []
  | step {node rest} (onward : Visits (links.next node) rest) : Visits (some node) (node :: rest)

/-- The nodes at or below a root. -/
inductive Within (root : ν) : ν → Prop where
  | root : Within root root
  | child {node child} (inside : Within root node) (below : child ∈ links.children node) :
      Within root child

/-! ## Correct links -/

/-- The links agree: a child refers to the node it is a child of and to its position there, and a
node is the child of its parent at its index. -/
structure Correct : Prop where
  down : ∀ node position child, (links.children node)[position]? = some child →
    links.parent child = some node ∧ links.index child = position
  up : ∀ node enclosing, links.parent node = some enclosing →
    (links.children enclosing)[links.index node]? = some node

/-- The laws that tie the moves at a node together. -/
structure ConsistentAt (node : ν) : Prop where
  /-- Whoever moves to the next sibling can move back. -/
  previous_of_next : ∀ other, links.next node = some other → links.previous other = some node
  /-- Whoever moves to the previous sibling can move back. -/
  next_of_previous : ∀ other, links.previous node = some other → links.next other = some node
  /-- Whoever moves down can move up again. -/
  parent_of_first : ∀ child, links.first node = some child → links.parent child = some node
  parent_of_last : ∀ child, links.last node = some child → links.parent child = some node
  parent_of_find : ∀ wanted child, links.find node wanted = some child →
    links.parent child = some node
  /-- Nothing stands before the first child and nothing after the last one. -/
  previous_of_first : ∀ child, links.first node = some child → links.previous child = none
  next_of_last : ∀ child, links.last node = some child → links.next child = none
  /-- From the first child on, the children are visited in order, each once, up to the last one. -/
  visits : links.Visits (links.first node) (links.children node)
  once : (links.children node).Nodup
  ends : (links.children node).getLast? = links.last node
  /-- The child that is found is the earliest of the visited ones with the label that is wanted. -/
  earliest : ∀ wanted child, links.find node wanted = some child ↔
    wanted (links.label child) = true ∧
      ∃ before after, links.children node = before ++ child :: after ∧
      ∀ other ∈ before, wanted (links.label other) = false
  /-- A node without a parent has no siblings. -/
  alone : links.parent node = none → links.next node = none ∧ links.previous node = none

variable {links}

namespace Correct

variable (correct : links.Correct)
include correct

theorem mem_children_iff (node child : ν) :
    child ∈ links.children node ↔ links.parent child = some node := by
  constructor
  · intro member
    obtain ⟨position, found⟩ := List.mem_iff_getElem?.mp member
    exact (correct.down node position child found).1
  · intro up
    exact List.mem_of_getElem? (correct.up child node up)

/-- The sibling at a position has the same parent and that position as its index. -/
theorem siblingAt_eq_some_iff (node other : ν) (position : Nat) :
    links.siblingAt node position = some other ↔
      ∃ enclosing, links.parent node = some enclosing ∧ links.parent other = some enclosing ∧
        links.index other = position := by
  rw [siblingAt, Option.bind_eq_some_iff]
  constructor
  · rintro ⟨enclosing, up, found⟩
    exact ⟨enclosing, up, correct.down enclosing position other found⟩
  · rintro ⟨enclosing, up, otherUp, rfl⟩
    exact ⟨enclosing, up, correct.up other enclosing otherUp⟩

/-- The two moves to a sibling undo each other. -/
theorem next_iff_previous (node other : ν) :
    links.next node = some other ↔ links.previous other = some node := by
  unfold next previous
  rw [correct.siblingAt_eq_some_iff]
  constructor
  · rintro ⟨enclosing, up, otherUp, index⟩
    rw [if_neg (by omega), correct.siblingAt_eq_some_iff]
    exact ⟨enclosing, otherUp, up, by omega⟩
  · intro before
    split at before
    · cases before
    · obtain ⟨enclosing, otherUp, up, index⟩ := (correct.siblingAt_eq_some_iff _ _ _).mp before
      exact ⟨enclosing, up, otherUp, by omega⟩

/-- No two children of a node are the same: they have different indices. -/
theorem nodup_children (node : ν) : (links.children node).Nodup := by
  rw [List.nodup_iff_getElem?_ne_getElem?]
  intro first second before inside same
  have found := List.getElem?_eq_getElem inside
  have firstIndex := (correct.down node first _ (same.trans found)).2
  have secondIndex := (correct.down node second _ found).2
  omega

/-- The child after the first few is followed by the one after that. -/
theorem next_of_split (node child : ν) (before after : List ν)
    (split : links.children node = before ++ child :: after) : links.next child = after.head? := by
  obtain ⟨up, index⟩ := correct.down node before.length child (by simp [split])
  rw [next, siblingAt, up, index, Option.bind_some, split]
  simp [List.getElem?_append_right, List.head?_eq_getElem?]

/-- From any child on, the rest of the children are visited. The induction is on the rest. -/
theorem visits_of_split (node : ν) (before rest : List ν)
    (split : links.children node = before ++ rest) : links.Visits rest.head? rest := by
  induction rest generalizing before with
  | nil => exact .done
  | cons child after inductionHypothesis =>
    apply Visits.step
    rw [correct.next_of_split node child before after split]
    exact inductionHypothesis (before ++ [child]) (by simp [split])

/-- Where the links agree, all laws of the moves hold. -/
theorem consistentAt (node : ν) : links.ConsistentAt node where
  previous_of_next other := (correct.next_iff_previous node other).mp
  next_of_previous other := (correct.next_iff_previous other node).mpr
  parent_of_first child found := (correct.mem_children_iff node child).mp (List.mem_of_head? found)
  parent_of_last child found :=
    (correct.mem_children_iff node child).mp (List.mem_of_getLast? found)
  parent_of_find wanted child found :=
    (correct.mem_children_iff node child).mp (List.mem_of_find?_eq_some found)
  previous_of_first child found := by
    rw [first, List.head?_eq_getElem?] at found
    rw [previous, if_pos (correct.down node 0 child found).2]
  next_of_last child found := by
    obtain ⟨before, split⟩ := List.getLast?_eq_some_iff.mp found
    rw [correct.next_of_split node child before [] split]
    rfl
  visits := correct.visits_of_split node [] (links.children node) rfl
  once := correct.nodup_children node
  ends := rfl
  earliest wanted child := by
    rw [find, List.find?_eq_some_iff_append]
    simp only [Bool.not_eq_eq_eq_not, Bool.not_true]
  alone top := by
    simp [next, previous, siblingAt, top]

/-! ## Runs of moves -/

/-- A move goes to a node of the same tree. -/
theorem within_target (root node other : ν) (top : links.parent root = none)
    (inside : links.Within root node) (step : Cursor.Move α)
    (moved : links.target node step = some other) : links.Within root other := by
  have upward (node enclosing : ν) (inside : links.Within root node)
      (up : links.parent node = some enclosing) : links.Within root enclosing := by
    cases inside with
    | root => simp [top] at up
    | @child outer _ inside below =>
      rw [correct.mem_children_iff, up] at below
      obtain rfl := Option.some.inj below
      exact inside
  have sideways (position : Nat) (found : links.siblingAt node position = some other) :
      links.Within root other := by
    obtain ⟨enclosing, up, otherUp, -⟩ := (correct.siblingAt_eq_some_iff _ _ _).mp found
    exact .child (upward node enclosing inside up) ((correct.mem_children_iff _ _).mpr otherUp)
  cases step with
  | next => exact sideways _ moved
  | previous =>
    rw [target, previous] at moved
    split at moved
    · cases moved
    · exact sideways _ moved
  | first => exact .child inside (List.mem_of_head? moved)
  | last => exact .child inside (List.mem_of_getLast? moved)
  | parent => exact upward node other inside moved
  | find wanted => exact .child inside (List.mem_of_find?_eq_some moved)

theorem within_move (root node : ν) (top : links.parent root = none)
    (inside : links.Within root node) (step : Cursor.Move α) :
    links.Within root (links.move node step) := by
  unfold move
  cases moved : links.target node step with
  | none => exact inside
  | some other => exact correct.within_target root node other top inside step moved

/-- No run of moves leaves the tree. -/
theorem within_follow (root node : ν) (top : links.parent root = none)
    (inside : links.Within root node) (steps : List (Cursor.Move α)) :
    links.Within root (links.follow node steps) := by
  induction steps generalizing node with
  | nil => exact inside
  | cons step rest inductionHypothesis =>
    exact inductionHypothesis (links.move node step) (correct.within_move root node top inside step)

end Correct

end Links

namespace Cursor

variable {α : Type}

/-- The places of trees, linked to one another. -/
def links (α : Type) : Links α (Cursor α) where
  label := label
  parent := parent
  index := index
  children := children

theorem links_correct : (links α).Correct where
  down node position child := parent_and_index_of_child node child position
  up := child_at_index

theorem links_previous (place : Cursor α) : (links α).previous place = place.previous := by
  cases up : place.parent with
  | none =>
    rw [eq_top_of_parent_none place up]
    rfl
  | some enclosing =>
    have inside := (List.getElem?_eq_some_iff.mp (child_at_index place enclosing up)).1
    have stored : enclosing.children[place.index - 1]? = some enclosing.children[place.index - 1] :=
      List.getElem?_eq_getElem (by omega)
    have before : (links α).siblingAt place (place.index - 1) =
        enclosing.children[place.index - 1]? := by
      simp [Links.siblingAt, links, up]
    rw [← getLast?_take_index place enclosing up, List.getLast?_take, stored,
      Option.some_or, ← stored, ← before]
    rfl

/-- The two moves to a sibling undo each other. -/
theorem next_iff_previous (place other : Cursor α) :
    place.next = some other ↔ other.previous = some place := by
  constructor
  · intro onward
    unfold next at onward
    split at onward
    · obtain rfl := Option.some.inj onward
      rfl
    · cases onward
  · intro backward
    unfold previous at backward
    split at backward
    · obtain rfl := Option.some.inj backward
      rfl
    · cases backward

theorem links_next (place : Cursor α) : (links α).next place = place.next := by
  ext other
  rw [links_correct.next_iff_previous, links_previous, next_iff_previous]

theorem links_first (place : Cursor α) : (links α).first place = place.first := by
  obtain ⟨⟨name, trees⟩, above⟩ := place
  cases trees <;> rfl

theorem links_last (place : Cursor α) : (links α).last place = place.last :=
  getLast?_children place

/-- The moves of a cursor are the moves along the links between places. -/
theorem links_target (place : Cursor α) (step : Move α) :
    (links α).target place step = place.target step := by
  cases step with
  | next => exact links_next place
  | previous => exact links_previous place
  | first => exact links_first place
  | last => exact links_last place
  | parent => rfl
  | find wanted => rfl

theorem links_follow (place : Cursor α) (steps : List (Move α)) :
    (links α).follow place steps = place.follow steps := by
  have same : (links α).move = move := by
    funext place step
    rw [Links.move, links_target, move]
  rw [Links.follow, same, follow]

end Cursor

namespace Links

variable {α ν : Type} {links : Links α ν}

/-! ## Linked nodes that stand for a tree -/

/-- The nodes stand for the places of a tree: what they hold is what the places have. -/
structure StandFor (links : Links α ν) (tree : Tree α) (node : Cursor α → ν) : Prop where
  label : ∀ place, place.tree = tree → links.label (node place) = place.label
  parent : ∀ place, place.tree = tree → links.parent (node place) = place.parent.map node
  index : ∀ place, place.tree = tree → links.index (node place) = place.index
  children : ∀ place, place.tree = tree → links.children (node place) = place.children.map node

namespace StandFor

variable {tree : Tree α} {node : Cursor α → ν} (standFor : links.StandFor tree node)
include standFor

theorem siblingAt (place : Cursor α) (inside : place.tree = tree) (position : Nat) :
    links.siblingAt (node place) position =
      ((Cursor.links α).siblingAt place position).map node := by
  rw [Links.siblingAt, Links.siblingAt, standFor.parent place inside]
  change _ = (place.parent.bind fun enclosing => enclosing.children[position]?).map node
  cases up : place.parent with
  | none => rfl
  | some enclosing =>
    have below :=
      standFor.children enclosing ((Cursor.tree_of_parent place enclosing up).symm.trans inside)
    simp [below]

/-- Moves along the links are the moves of the places. -/
theorem target (place : Cursor α) (inside : place.tree = tree) (step : Cursor.Move α) :
    links.target (node place) step = (place.target step).map node := by
  rw [← Cursor.links_target]
  have index : links.index (node place) = (Cursor.links α).index place :=
    standFor.index place inside
  have children : links.children (node place) = ((Cursor.links α).children place).map node :=
    standFor.children place inside
  cases step with
  | next =>
    rw [Links.target, Links.target, next, next, standFor.siblingAt place inside, index]
  | previous =>
    rw [Links.target, Links.target, previous, previous, standFor.siblingAt place inside, index]
    split <;> rfl
  | first =>
    rw [Links.target, Links.target, first, first, children, List.head?_map]
  | last =>
    rw [Links.target, Links.target, last, last, children, List.getLast?_map]
  | parent => exact standFor.parent place inside
  | find wanted =>
    rw [Links.target, Links.target, find, find, children, List.find?_map]
    apply congrArg (Option.map node)
    apply List.find?_congr
    intro child below
    have childInside :=
      Cursor.tree_of_parent child place ((Cursor.mem_children_iff child place).mp below)
    exact congrArg wanted (standFor.label child (childInside.trans inside))

/-- Different places have different nodes: they differ in the parent or in the index. -/
theorem injective (place other : Cursor α) (inside : place.tree = tree)
    (otherInside : other.tree = tree) (same : node place = node other) : place = other := by
  have parents (place : Cursor α) (inside : place.tree = tree) (other : Cursor α)
      (otherInside : other.tree = tree) (same : node place = node other) :
      place.parent.map node = other.parent.map node := by
    rw [← standFor.parent place inside, ← standFor.parent other otherInside, same]
  induction place using Cursor.parent_induction generalizing other with
  | root place top =>
    have up := parents place inside other otherInside same
    rw [top, Option.map_none, eq_comm, Option.map_eq_none_iff] at up
    rw [Cursor.eq_top_of_parent_none place top, Cursor.eq_top_of_parent_none other up,
      inside, otherInside]
  | step place enclosing up inductionHypothesis =>
    have outside := (Cursor.tree_of_parent place enclosing up).symm.trans inside
    have otherUp := parents place inside other otherInside same
    rw [up, Option.map_some, eq_comm, Option.map_eq_some_iff] at otherUp
    obtain ⟨otherEnclosing, otherUp, sameAbove⟩ := otherUp
    obtain rfl := inductionHypothesis otherEnclosing outside
      ((Cursor.tree_of_parent other otherEnclosing otherUp).symm.trans otherInside) sameAbove.symm
    have index : place.index = other.index := by
      rw [← standFor.index place inside, ← standFor.index other otherInside, same]
    have found := Cursor.child_at_index place enclosing up
    rw [index, Cursor.child_at_index other enclosing otherUp] at found
    exact (Option.some.inj found).symm

/-- The nodes at or below the root are the nodes of the places. -/
theorem within_iff (number : ν) :
    links.Within (node (Cursor.top tree)) number ↔
      ∃ place ∈ (Cursor.top tree).walk, node place = number := by
  constructor
  · intro inside
    induction inside with
    | root => exact ⟨_, Cursor.self_mem_walk _, rfl⟩
    | child _ below inductionHypothesis =>
      obtain ⟨place, listed, rfl⟩ := inductionHypothesis
      rw [standFor.children place (Cursor.tree_of_mem_walk place _ listed)] at below
      obtain ⟨child, member, rfl⟩ := List.mem_map.mp below
      exact ⟨child, Cursor.child_mem_walk place _ child listed member, rfl⟩
  · rintro ⟨place, listed, rfl⟩
    have both := Cursor.walk_invariant
      (motive := fun place => place.tree = tree ∧
        links.Within (node (Cursor.top tree)) (node place)) ?_
      (Cursor.top tree) ⟨rfl, .root⟩ place listed
    · exact both.2
    · rintro place ⟨inside, within⟩ child below
      have up := (Cursor.mem_children_iff child place).mp below
      refine ⟨(Cursor.tree_of_parent child place up).trans inside, .child within ?_⟩
      rw [standFor.children place inside]
      exact List.mem_map_of_mem below

end StandFor

end Links

namespace Cursor

variable {α : Type}

/-- The linked places of a tree stand for themselves. -/
theorem links_standFor (tree : Tree α) : (links α).StandFor tree id where
  label _ _ := rfl
  parent _ _ := (Option.map_id_apply ..).symm
  index _ _ := rfl
  children _ _ := (List.map_id _).symm

/-- No run of moves leaves the tree. -/
theorem follow_mem_walk (tree : Tree α) (start : Cursor α) (listed : start ∈ (top tree).walk)
    (steps : List (Move α)) : start.follow steps ∈ (top tree).walk := by
  have within (place : Cursor α) : (links α).Within (top tree) place ↔
      place ∈ (top tree).walk := by
    simpa using (links_standFor tree).within_iff place
  rw [← within] at listed ⊢
  rw [← links_follow]
  exact links_correct.within_follow (top tree) start rfl listed steps

theorem tree_follow (place : Cursor α) (steps : List (Move α)) :
    (place.follow steps).tree = place.tree :=
  tree_of_mem_walk _ (top place.tree) (follow_mem_walk place.tree place (mem_walk_top place) steps)

end Cursor

/-- Where linked nodes stand for a tree, runs of moves along the links are the runs of the
places. -/
theorem Links.StandFor.follow {α ν : Type} {links : Links α ν} {tree : Tree α}
    {node : Cursor α → ν}
    (standFor : links.StandFor tree node) (place : Cursor α) (inside : place.tree = tree)
    (steps : List (Cursor.Move α)) :
    links.follow (node place) steps = node (place.follow steps) := by
  induction steps generalizing place with
  | nil => rfl
  | cons step rest inductionHypothesis =>
    have moved : links.move (node place) step = node (place.move step) := by
      rw [Links.move, standFor.target place inside, Cursor.move]
      cases place.target step <;> rfl
    have later := inductionHypothesis (place.move step)
      ((Cursor.tree_follow place [step]).trans inside)
    rw [← moved] at later
    exact later

end StraySemicolon

import Mathlib.Data.Fin.VecNotation
import StraySemicolon.Proofs.Conversion
import StraySemicolon.Proofs.Links
import StraySemicolon.Proofs.Transparency

/-!
# The conversion with links

A converted node can be made with its links at once: when it is listed it gets its parent and, as
its index, the number of siblings that are there already, and its parent gets the children when all
of them are there. `SyntaxTree.linked` converts in this way, with the worklist of
`SyntaxTree.enterAll`.

The links are right after every step, because a node is listed once, below the one node that is
expanded then, and a pending node has no children yet. In the end the nodes stand for the places of
the syntax tree: a run of moves along the links is a run of the cursor.
-/

namespace StraySemicolon

namespace Links

variable {α ν : Type}

/-! ## The tree below a node -/

/-- A node holds a tree: it has the label of the root and as many children as there are trees below,
and these children hold those trees, one by one and in order. -/
inductive Holds (links : Links α ν) : ν → Tree α → Prop where
  | node {node trees} (count : (links.children node).length = trees.length)
      (below : ∀ (position : Nat) (child : ν) (tree : Tree α),
        (links.children node)[position]? = some child → trees[position]? = some tree →
          Holds links child tree) :
      Holds links node (.node (links.label node) trees)

variable {links : Links α ν} {root : ν} {tree : Tree α}

namespace Holds

theorem label {node : ν} (holds : links.Holds node tree) : links.label node = tree.label := by
  cases holds
  rfl

theorem length {node : ν} (holds : links.Holds node tree) :
    (links.children node).length = tree.children.length := by
  cases holds with
  | node count below => exact count

theorem child {node child : ν} {subtree : Tree α} (holds : links.Holds node tree) (position : Nat)
    (found : (links.children node)[position]? = some child)
    (stored : tree.children[position]? = some subtree) : links.Holds child subtree := by
  cases holds with
  | node count below => exact below position child subtree found stored

end Holds

/-- The node of the place with the given frames, reached from the node of the root by the
indices. -/
def nodeAt (links : Links α ν) (root : ν) : List (Frame α) → ν
  | [] => root
  | frame :: above =>
    ((links.children (nodeAt links root above))[frame.before.length]?).getD root

/-- The node of a place. -/
def nodeOf (links : Links α ν) (root : ν) (place : Cursor α) : ν :=
  links.nodeAt root place.above

/-- The node of a child is found by its position. -/
theorem nodeOf_child (place child : Cursor α) (position : Nat)
    (found : place.children[position]? = some child) :
    links.nodeOf root child =
      ((links.children (links.nodeOf root place))[position]?).getD root := by
  obtain ⟨up, rfl⟩ := Cursor.parent_and_index_of_child place child position found
  obtain ⟨focus, frame, above, rfl, rfl⟩ := Cursor.eq_of_parent child place up
  rfl

/-- If a node holds the subtree of a place, its children are the nodes of the children. -/
theorem children_of_holds (place : Cursor α)
    (holds : links.Holds (links.nodeOf root place) place.focus) :
    links.children (links.nodeOf root place) = place.children.map (links.nodeOf root) := by
  apply List.ext_getElem
  · rw [holds.length, List.length_map, Cursor.length_children]
  · intro position inside alsoInside
    rw [List.length_map] at alsoInside
    rw [List.getElem_map, nodeOf_child place _ position (List.getElem?_eq_getElem alsoInside),
      List.getElem?_eq_getElem inside, Option.getD_some]

/-- Every place of the tree that the root holds has a node that holds its subtree. -/
theorem holds_nodeOf (held : links.Holds root tree) (place : Cursor α)
    (inside : place.tree = tree) :
    links.Holds (links.nodeOf root place) place.focus := by
  induction place using Cursor.parent_induction with
  | root place top =>
    rw [Cursor.eq_top_of_parent_none place top, inside]
    exact held
  | step place enclosing up inductionHypothesis =>
    have outer := inductionHypothesis ((Cursor.tree_of_parent place enclosing up).symm.trans inside)
    have found := Cursor.child_at_index place enclosing up
    apply outer.child place.index
    · rw [children_of_holds enclosing outer, List.getElem?_map, found, Option.map_some]
    · rw [← Cursor.map_focus_children, List.getElem?_map, found, Option.map_some]

/-- Where the links agree, the nodes below a root stand for the places of the tree that it holds. -/
theorem standFor_of_holds (correct : links.Correct) (top : links.parent root = none)
    (first : links.index root = 0) (held : links.Holds root tree) :
    links.StandFor tree (links.nodeOf root) := by
  have linked (place : Cursor α) (inside : place.tree = tree) :
      links.parent (links.nodeOf root place) = place.parent.map (links.nodeOf root) ∧
        links.index (links.nodeOf root place) = place.index := by
    cases up : place.parent with
    | none =>
      rw [Cursor.eq_top_of_parent_none place up]
      exact ⟨top, first⟩
    | some enclosing =>
      have outside := (Cursor.tree_of_parent place enclosing up).symm.trans inside
      apply correct.down
      rw [children_of_holds enclosing (holds_nodeOf held enclosing outside), List.getElem?_map,
        Cursor.child_at_index place enclosing up, Option.map_some]
  constructor
  · intro place inside
    exact (holds_nodeOf held place inside).label
  · intro place inside
    exact (linked place inside).1
  · intro place inside
    exact (linked place inside).2
  · intro place inside
    exact children_of_holds place (holds_nodeOf held place inside)

/-- The nodes from a root on are linked correctly and hold a tree, and the root is no child. -/
structure WellFormed (links : Links α ν) (root : ν) (tree : Tree α) : Prop where
  correct : links.Correct
  top : links.parent root = none
  first : links.index root = 0
  holds : links.Holds root tree

/-- Well-formed nodes stand for the places of the tree that they hold. -/
theorem WellFormed.standFor (wellFormed : links.WellFormed root tree) :
    links.StandFor tree (links.nodeOf root) :=
  standFor_of_holds wellFormed.correct wellFormed.top wellFormed.first wellFormed.holds

/-! ## Attaching nodes -/

/-- Nodes with consecutive numbers become the children of a node, one for each label. -/
def attach (links : Links α Nat) (enclosing number : Nat) (labels : List α) : Links α Nat where
  label asked :=
    if number ≤ asked then labels[asked - number]?.getD (links.label asked) else links.label asked
  parent asked :=
    if number ≤ asked ∧ asked < number + labels.length then some enclosing
      else links.parent asked
  index asked :=
    if number ≤ asked ∧ asked < number + labels.length then asked - number
      else links.index asked
  children asked :=
    if asked = enclosing then List.range' number labels.length else links.children asked

namespace attach

variable (links : Links α Nat) (enclosing number : Nat) (labels : List α)

/-- What is attached has its label, the node it is attached to as its parent, and its position as
its index. -/
theorem attached (position : Nat) (inside : position < labels.length) :
    (links.attach enclosing number labels).label (number + position) = labels[position] ∧
      (links.attach enclosing number labels).parent (number + position) = some enclosing ∧
      (links.attach enclosing number labels).index (number + position) = position := by
  simp [attach, inside]

/-- Nodes with earlier numbers keep their label, their parent and their index. -/
theorem earlier (asked : Nat) (before : asked < number) :
    (links.attach enclosing number labels).label asked = links.label asked ∧
      (links.attach enclosing number labels).parent asked = links.parent asked ∧
      (links.attach enclosing number labels).index asked = links.index asked := by
  have notLater : ¬number ≤ asked := by omega
  simp [attach, notLater]

theorem children (asked : Nat) :
    (links.attach enclosing number labels).children asked =
      if asked = enclosing then List.range' number labels.length else links.children asked :=
  rfl

/-- The links still agree when nodes with new numbers are attached to a node without children. -/
theorem correct (agrees : links.Correct) (given : enclosing < number)
    (bare : links.children enclosing = [])
    (unused : ∀ later, number ≤ later → links.parent later = none) :
    (links.attach enclosing number labels).Correct where
  down node position child found := by
    rw [children] at found
    split at found
    · rename_i same
      obtain ⟨inside, value⟩ := List.getElem?_eq_some_iff.mp found
      rw [List.length_range'] at inside
      rw [List.getElem_range', Nat.one_mul] at value
      rw [← value, same]
      exact (attached links enclosing number labels position inside).2
    · obtain ⟨up, index⟩ := agrees.down node position child found
      have before : child < number := by
        by_contra later
        simp [unused child (by omega)] at up
      have kept := earlier links enclosing number labels child before
      rw [kept.2.1, kept.2.2]
      exact ⟨up, index⟩
  up node outer above := by
    by_cases new : number ≤ node ∧ node < number + labels.length
    · obtain ⟨position, rfl⟩ := Nat.exists_eq_add_of_le new.1
      have inside : position < labels.length := by omega
      obtain ⟨-, parent, index⟩ := attached links enclosing number labels position inside
      rw [parent] at above
      obtain rfl := Option.some.inj above
      rw [index, children, if_pos rfl]
      simp [inside]
    · have parent : (links.attach enclosing number labels).parent node = links.parent node :=
        if_neg new
      have index : (links.attach enclosing number labels).index node = links.index node :=
        if_neg new
      rw [parent] at above
      have found := agrees.up node outer above
      have other : outer ≠ enclosing := by
        rintro rfl
        simp [bare] at found
      rw [index, children, if_neg other]
      exact found

end attach

end Links

namespace SyntaxTree

/-! ## The worklist -/

/-- The links from the pending nodes on. The most recent pending tree is taken first; its members
become its children, linked with it and in order, and become pending themselves. -/
def linkAll (links : Links SyntaxNode Nat) (number : Nat) : List Pending → Links SyntaxNode Nat
  | [] => links
  | ⟨enclosing, kind, tree⟩ :: pending =>
    let members := tree.members
    let labels := members.map fun member => SyntaxNode.ofConcrete (some kind) member.label
    linkAll (links.attach enclosing number labels) (number + members.length)
      ((Pending.enter kind number members).reverse ++ pending)
termination_by pending => weight pending
decreasing_by
  have smaller := ConcreteTree.size_members_lt tree
  rw [weight_append, weight_reverse, weight_enter]
  simp only [weight]
  omega

/-- One node without links. -/
def unlinked (root : SyntaxNode) : Links SyntaxNode Nat where
  label _ := root
  parent _ := none
  index _ := 0
  children _ := []

/-- The linked nodes of a concrete tree. The root is number 0. -/
def linked (tree : ConcreteTree) : Links SyntaxNode Nat :=
  let root := SyntaxNode.ofConcrete none tree.label
  linkAll (unlinked root) 1 [⟨0, root.kind, tree⟩]

/-- What holds before every step of the worklist: the links agree, the pending nodes have earlier
numbers and no children, no two of them are the same, and the numbers from the next one on are not
in use. -/
structure Ready (links : Links SyntaxNode Nat) (number : Nat) (pending : List Pending) : Prop where
  correct : links.Correct
  given : ∀ entry ∈ pending, entry.number < number
  bare : ∀ entry ∈ pending, links.children entry.number = []
  apart : (pending.map Pending.number).Nodup
  unused : ∀ later, number ≤ later → links.parent later = none ∧ links.children later = []

/-- The members get the numbers from the next one on. -/
theorem map_number_enter (parent : Kind) (number : Nat) (members : List ConcreteTree) :
    (Pending.enter parent number members).map Pending.number =
      List.range' number members.length := by
  induction members generalizing number with
  | nil => rfl
  | cons member rest inductionHypothesis =>
    rw [Pending.enter, List.map_cons, inductionHypothesis, List.length_cons, List.range'_succ]

/-- A tree that is taken off the worklist is not pending again after the step. -/
theorem apart_of_ready (links : Links SyntaxNode Nat) (number : Nat) (entry : Pending)
    (pending : List Pending) (ready : Ready links number (entry :: pending)) :
    ∀ other ∈ (Pending.enter entry.kind number entry.tree.members).reverse ++ pending,
      other.number ≠ entry.number := by
  intro other waiting
  rcases List.mem_append.mp waiting with entered | waiting
  · have new := (number_mem_enter _ _ _ other (List.mem_reverse.mp entered)).1
    have given := ready.given entry List.mem_cons_self
    omega
  · have apart := ready.apart
    rw [List.map_cons, List.nodup_cons] at apart
    intro same
    exact apart.1 (List.mem_map.mpr ⟨other, waiting, same⟩)

/-- One step keeps the worklist ready. -/
theorem ready_attach (links : Links SyntaxNode Nat) (number : Nat) (entry : Pending)
    (pending : List Pending) (labels : List SyntaxNode)
    (count : labels.length = entry.tree.members.length)
    (ready : Ready links number (entry :: pending)) :
    Ready (links.attach entry.number number labels) (number + entry.tree.members.length)
      ((Pending.enter entry.kind number entry.tree.members).reverse ++ pending) := by
  have notPending := apart_of_ready links number entry pending ready
  obtain ⟨correct, given, bare, apart, unused⟩ := ready
  have entryGiven := given entry List.mem_cons_self
  have entryBare := bare entry List.mem_cons_self
  rw [List.map_cons, List.nodup_cons] at apart
  have restGiven (other : Pending) (waiting : other ∈ pending) : other.number < number :=
    given other (List.mem_cons_of_mem _ waiting)
  constructor
  · exact Links.attach.correct links entry.number number labels correct entryGiven entryBare
      fun later new => (unused later new).1
  · intro other waiting
    rcases List.mem_append.mp waiting with entered | waiting
    · exact (number_mem_enter _ _ _ other (List.mem_reverse.mp entered)).2
    · have := restGiven other waiting
      omega
  · intro other waiting
    rw [Links.attach.children, if_neg (notPending other waiting)]
    rcases List.mem_append.mp waiting with entered | waiting
    · have new := (number_mem_enter _ _ _ other (List.mem_reverse.mp entered)).1
      exact (unused other.number new).2
    · exact bare other (List.mem_cons_of_mem _ waiting)
  · rw [List.map_append, List.map_reverse, map_number_enter, List.nodup_append',
      List.nodup_reverse]
    refine ⟨List.nodup_range', apart.2, ?_⟩
    intro asked entered given
    obtain ⟨other, waiting, rfl⟩ := List.mem_map.mp given
    have := restGiven other waiting
    rw [List.mem_reverse, List.mem_range'_1] at entered
    omega
  · intro later new
    constructor
    · have outside : ¬(number ≤ later ∧ later < number + labels.length) := by omega
      exact (if_neg outside).trans (unused later (by omega)).1
    · rw [Links.attach.children, if_neg (by omega)]
      exact (unused later (by omega)).2

/-- The links agree in the end. -/
theorem linkAll_correct (links : Links SyntaxNode Nat) (number : Nat) (pending : List Pending)
    (ready : Ready links number pending) : (linkAll links number pending).Correct := by
  fun_induction linkAll links number pending with
  | case1 links number => exact ready.correct
  | case2 links number enclosing kind tree pending members labels inductionHypothesis =>
    apply inductionHypothesis
    exact ready_attach links number ⟨enclosing, kind, tree⟩ pending labels
      (by simp [labels, members]) ready

/-- Nodes with earlier numbers keep what they hold, apart from the children of the pending ones. -/
theorem linkAll_earlier (links : Links SyntaxNode Nat) (number : Nat) (pending : List Pending)
    (asked : Nat) (before : asked < number) :
    ((linkAll links number pending).label asked = links.label asked ∧
      (linkAll links number pending).parent asked = links.parent asked ∧
      (linkAll links number pending).index asked = links.index asked) ∧
    ((∀ entry ∈ pending, entry.number ≠ asked) →
      (linkAll links number pending).children asked = links.children asked) := by
  fun_induction linkAll links number pending with
  | case1 links number => simp
  | case2 links number enclosing kind tree pending members labels inductionHypothesis =>
    obtain ⟨⟨label, parent, index⟩, children⟩ := inductionHypothesis (by omega)
    obtain ⟨labelKept, parentKept, indexKept⟩ :=
      Links.attach.earlier links enclosing number labels asked before
    refine ⟨⟨label.trans labelKept, parent.trans parentKept, index.trans indexKept⟩, ?_⟩
    intro notPending
    rw [children, Links.attach.children, if_neg (notPending _ List.mem_cons_self).symm]
    intro entry waiting
    rcases List.mem_append.mp waiting with entered | waiting
    · have new := (number_mem_enter _ _ _ entry (List.mem_reverse.mp entered)).1
      omega
    · exact notPending entry (List.mem_cons_of_mem _ waiting)

/-- A node whose children hold the conversions of the members holds what the pending tree is due. -/
theorem holds_of_members (links : Links SyntaxNode Nat) (number : Nat) (entry : Pending)
    (children : links.children entry.number = List.range' number entry.tree.members.length)
    (held : ∀ (position : Nat) (inside : position < entry.tree.members.length),
      links.Holds (number + position) (convert (some entry.kind) entry.tree.members[position])) :
    links.Holds entry.number (.node (links.label entry.number) entry.due) := by
  apply Links.Holds.node
  · rw [children, List.length_range', Pending.due, List.length_map]
  · intro position child tree found stored
    rw [children] at found
    obtain ⟨inside, rfl⟩ := List.getElem?_eq_some_iff.mp found
    rw [List.length_range'] at inside
    rw [Pending.due, List.getElem?_map, List.getElem?_eq_getElem inside, Option.map_some] at stored
    obtain rfl := Option.some.inj stored
    rw [List.getElem_range', Nat.one_mul]
    exact held position inside

/-- In the end, every pending node holds its label with the conversions of the members of its tree.
The members of the tree on top are pending after the step, so the induction hypothesis is about
them. -/
theorem holds_linkAll (links : Links SyntaxNode Nat) (number : Nat) (pending : List Pending)
    (ready : Ready links number pending) :
    ∀ entry ∈ pending, (linkAll links number pending).Holds entry.number
      (.node (links.label entry.number) entry.due) := by
  fun_induction linkAll links number pending with
  | case1 links number => simp
  | case2 links number enclosing kind tree pending members labels inductionHypothesis =>
    have nextReady := ready_attach links number ⟨enclosing, kind, tree⟩ pending labels
      (by simp [labels, members]) ready
    have later := inductionHypothesis nextReady
    intro entry member
    have given := ready.given entry member
    have kept := (Links.attach.earlier links enclosing number labels entry.number given).1
    rcases List.mem_cons.mp member with rfl | waiting
    · have before : enclosing < number + members.length := Nat.lt_add_right _ given
      obtain ⟨⟨label, -, -⟩, children⟩ :=
        linkAll_earlier (links.attach enclosing number labels)
          (number + members.length) ((Pending.enter kind number members).reverse ++ pending)
            enclosing before
      have notPending := apart_of_ready links number ⟨enclosing, kind, tree⟩ pending ready
      rw [← kept, ← label]
      apply holds_of_members _ number ⟨enclosing, kind, tree⟩
      · rw [children notPending, Links.attach.children, if_pos rfl, List.length_map]
      · intro position inside
        have held := later _ (List.mem_append_left _
          (List.mem_reverse.mpr (mem_enter kind number members position inside)))
        rw [(Links.attach.attached links enclosing number labels position
          (by simpa [labels] using inside)).1, List.getElem_map] at held
        rw [convert_eq]
        exact held
    · have held := later entry (List.mem_append_right _ waiting)
      rwa [kept] at held

/-! ## The linked nodes of a concrete tree -/

theorem ready_unlinked (root : SyntaxNode) (kind : Kind) (tree : ConcreteTree) :
    Ready (unlinked root) 1 [⟨0, kind, tree⟩] where
  correct := ⟨by simp [unlinked], by simp [unlinked]⟩
  given := by simp
  bare := by simp [unlinked]
  apart := by simp
  unused := by simp [unlinked]

/-- The node of a place of the syntax tree. -/
def nodeOf (tree : ConcreteTree) (place : Place) : Nat :=
  (linked tree).nodeOf 0 place

/-- The linked nodes of a concrete tree are well-formed and hold the syntax tree. -/
theorem linked_wellFormed (tree : ConcreteTree) : (linked tree).WellFormed 0 (ofConcrete tree) := by
  have ready := ready_unlinked (SyntaxNode.ofConcrete none tree.label)
    (SyntaxNode.ofConcrete none tree.label).kind tree
  obtain ⟨⟨-, parent, index⟩, -⟩ :=
    linkAll_earlier (unlinked (SyntaxNode.ofConcrete none tree.label)) 1
      [⟨0, (SyntaxNode.ofConcrete none tree.label).kind, tree⟩] 0 (by omega)
  have held := holds_linkAll _ _ _ ready _ List.mem_cons_self
  have whole : ofConcrete tree = .node (SyntaxNode.ofConcrete none tree.label)
      (Pending.due ⟨0, (SyntaxNode.ofConcrete none tree.label).kind, tree⟩) :=
    (ofConcrete_eq tree).trans (convert_eq none tree)
  rw [whole]
  exact ⟨linkAll_correct _ _ _ ready, parent, index, held⟩

/-- The worklist stands for the recursion, and it makes the one syntax tree whose root, listed below
nothing, holds the conversion of the concrete tree. When it stores the links, every node refers to
the node that it is listed below and to its position there, and the nodes hold that syntax tree. -/
theorem ofConcrete_eq_convert_and_converts_iff (tree : ConcreteTree) :
    ofConcrete tree = convert none tree ∧
      (∀ candidate : SyntaxTree, Converts none tree (Cursor.top candidate) ↔
        candidate = ofConcrete tree) ∧
      (linked tree).WellFormed 0 (ofConcrete tree) := by
  refine ⟨ofConcrete_eq tree, ?_, linked_wellFormed tree⟩
  intro candidate
  exact converts_top_iff tree candidate

/-- The linked nodes of a concrete tree are linked correctly, their root is no child, and they stand
for the places of the syntax tree. -/
theorem linked_standFor (tree : ConcreteTree) :
    (linked tree).Correct ∧ (linked tree).parent 0 = none ∧
      (linked tree).StandFor (ofConcrete tree) (nodeOf tree) := by
  have wellFormed := linked_wellFormed tree
  exact ⟨wellFormed.correct, wellFormed.top, wellFormed.standFor⟩

end SyntaxTree

/-- Navigation is consistent over every run of moves. Whatever nodes are linked correctly, a run of
moves from a node below a root stays below it, and all laws of the moves hold where it ends. The
moves of a cursor are of this sort, so the same is true of every run from a place of a tree, and the
root of the tree has no parent and no siblings. The conversion makes correctly linked nodes, those
below the root are those of the places of the syntax tree, each of one place, and their runs are the
runs of the cursor. -/
theorem navigation_is_consistent :
    (∀ (α ν : Type) (links : Links α ν), links.Correct →
      ∀ root, links.parent root = none → ∀ start, links.Within root start →
        ∀ steps : List (Cursor.Move α),
          links.Within root (links.follow start steps) ∧
          links.ConsistentAt (links.follow start steps)) ∧
    (∀ (α : Type) (tree : Tree α),
      ((Cursor.top tree).parent = none ∧ (Cursor.top tree).next = none ∧
        (Cursor.top tree).previous = none) ∧
      ∀ start ∈ (Cursor.top tree).walk, ∀ steps : List (Cursor.Move α),
        start.follow steps ∈ (Cursor.top tree).walk ∧
        (Cursor.links α).ConsistentAt (start.follow steps) ∧
        ∀ step, (Cursor.links α).target (start.follow steps) step =
          (start.follow steps).target step) ∧
    ∀ tree : ConcreteTree,
      let links := SyntaxTree.linked tree
      let node := SyntaxTree.nodeOf tree
      let root : Place := Cursor.top (SyntaxTree.ofConcrete tree)
      links.Correct ∧ links.parent (node root) = none ∧
      (∀ number, links.Within (node root) number ↔
        ∃ place ∈ root.walk, node place = number) ∧
      (∀ place ∈ root.walk, ∀ other ∈ root.walk,
        node place = node other → place = other) ∧
      ∀ start ∈ root.walk, links.label (node start) = start.label ∧
        ∀ steps, links.follow (node start) steps = node (start.follow steps) := by
  refine ⟨?_, ?_, ?_⟩
  · intro α ν links correct root top start inside steps
    exact ⟨correct.within_follow root start top inside steps, correct.consistentAt _⟩
  · intro α tree
    refine ⟨⟨rfl, rfl, rfl⟩, ?_⟩
    intro start listed steps
    exact ⟨Cursor.follow_mem_walk tree start listed steps, Cursor.links_correct.consistentAt _,
      Cursor.links_target _⟩
  · intro tree links node root
    obtain ⟨correct, top, standFor⟩ := SyntaxTree.linked_standFor tree
    have inside (place : Place) (listed : place ∈ root.walk) :
        place.tree = SyntaxTree.ofConcrete tree :=
      Cursor.tree_of_mem_walk place root listed
    refine ⟨correct, top, standFor.within_iff, ?_, ?_⟩
    · intro place listed other otherListed same
      exact standFor.injective place other (inside place listed) (inside other otherListed) same
    · intro start listed
      exact ⟨standFor.label start (inside start listed),
        standFor.follow start (inside start listed)⟩

/-- A field with a name and a semicolon, written down with its links. -/
def linkedField : Links Kind (Fin 3) where
  label := ![.fieldDef, .other, .semi]
  parent := ![none, some 0, some 0]
  index := ![0, 0, 1]
  children := ![[1, 2], [], []]

theorem linkedField_correct : linkedField.Correct where
  down node position child found := by
    have stored : ∀ node : Fin 3, ∀ position : Fin (linkedField.children node).length,
        linkedField.parent ((linkedField.children node).get position) = some node ∧
          linkedField.index ((linkedField.children node).get position) = position := by
      decide
    obtain ⟨inside, rfl⟩ := List.getElem?_eq_some_iff.mp found
    exact stored node ⟨position, inside⟩
  up := by
    decide

/-- From the semicolon of the field, two moves back and one on lead to the semicolon again: the
second move back has no target. In the padded enum, the move on from the first semicolon leads to
the one that the wrapper held; so it does along the links. -/
theorem linkedField_and_paddedEnum_navigation :
    let root : Place := Cursor.top (SyntaxTree.ofConcrete paddedEnum)
    let steps : List (Cursor.Move SyntaxNode) := [.find fun node => node.kind == .semi, .next]
    (linkedField.Correct ∧ linkedField.parent 0 = none ∧ linkedField.Within 0 2 ∧
      linkedField.follow 2 [.previous, .previous, .next] = 2 ∧
      linkedField.Within 0 2 ∧ linkedField.ConsistentAt 2) ∧
    root ∈ root.walk ∧ root.follow steps ∈ root.walk ∧
    (Cursor.links SyntaxNode).ConsistentAt (root.follow steps) ∧
    (SyntaxTree.linked paddedEnum).follow (SyntaxTree.nodeOf paddedEnum root) steps =
      SyntaxTree.nodeOf paddedEnum (root.follow steps) ∧
    (SyntaxTree.linked paddedEnum).label (SyntaxTree.nodeOf paddedEnum (root.follow steps)) =
      ⟨.semi, ";", 1, 4⟩ := by
  intro root steps
  obtain ⟨everywhere, places, conversion⟩ := navigation_is_consistent
  have inside : linkedField.Within 0 2 := .child .root (by decide)
  have run : linkedField.follow 2 [.previous, .previous, .next] = 2 := by decide
  obtain ⟨reached, consistent⟩ := everywhere Kind (Fin 3) linkedField linkedField_correct 0
    (by decide) 2 inside [.previous, .previous, .next]
  rw [run] at reached consistent
  have listed : root ∈ root.walk := Cursor.self_mem_walk root
  obtain ⟨stays, laws, -⟩ :=
    (places SyntaxNode (SyntaxTree.ofConcrete paddedEnum)).2 root listed steps
  obtain ⟨-, -, -, -, runs⟩ := conversion paddedEnum
  refine ⟨⟨linkedField_correct, by decide, inside, run, reached, consistent⟩,
    listed, stays, laws, (runs root listed).2 steps, ?_⟩
  rw [(runs _ stays).1]
  simp only [root, ofConcrete_paddedEnum]
  decide

end StraySemicolon

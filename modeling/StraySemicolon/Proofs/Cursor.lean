import Mathlib.Data.List.Nodup
import StraySemicolon.Tree.Cursor

/-!
# Places of a tree

Every move of a cursor is tied to the children of some place: a place is a child of exactly its
parent, its index is its position among those children, and the sibling before it is the child
before it.

`Cursor.walk` lists a place and then what lies below each child in turn. The walk of a place is a
contiguous part of the walk of the whole tree, and no place is listed twice. From these two facts
the children of a place can be read off the walk of the tree: they are the listed places with that
parent, in their order.
-/

namespace StraySemicolon

/-- A tree in a list is smaller than one node above the list. -/
theorem Tree.size_le_sizeAll {α : Type} (tree : Tree α) (trees : List (Tree α))
    (member : tree ∈ trees) : tree.size ≤ Tree.sizeAll trees := by
  induction trees with
  | nil => simp at member
  | cons first rest inductionHypothesis =>
    rcases List.mem_cons.mp member with rfl | later
    · simp [Tree.sizeAll]
    · have below := inductionHypothesis later
      simp only [Tree.sizeAll]
      omega

/-- Up to an item that stands in a list only once, a list is what comes before the item. -/
theorem List.takeWhile_ne_eq {α : Type} [DecidableEq α] (list earlier later : List α) (item : α)
    (distinct : list.Nodup) (split : list = earlier ++ item :: later) :
    list.takeWhile (fun other => decide (other ≠ item)) = earlier := by
  rw [split, List.nodup_append'] at distinct
  rw [split, List.takeWhile_append_of_pos, List.takeWhile_cons_of_neg (by simp), List.append_nil]
  intro other member
  have : other ≠ item := by
    rintro rfl
    exact distinct.2.2 member List.mem_cons_self
  simpa using this

namespace Cursor

variable {α : Type}

/-! ## Children and parents -/

/-- The sibling at a position keeps the earlier trees to its left, nearest first, and the later ones
to its right. -/
theorem getElem?_siblings (label : α) (above : List (Frame α)) (before trees : List (Tree α))
    (position : Nat) :
    (siblings label above before trees)[position]? =
      trees[position]?.map fun tree =>
        ⟨tree, ⟨label, (trees.take position).reverse ++ before, trees.drop (position + 1)⟩ ::
          above⟩ := by
  induction trees generalizing before position with
  | nil => rfl
  | cons first rest inductionHypothesis =>
    cases position with
    | zero => rfl
    | succ position => simp [siblings, inductionHypothesis]

/-- The child at a position, with its siblings to either side. -/
theorem getElem?_children (place : Cursor α) (position : Nat) :
    place.children[position]? =
      place.focus.children[position]?.map fun tree =>
        ⟨tree, ⟨place.label, (place.focus.children.take position).reverse,
          place.focus.children.drop (position + 1)⟩ :: place.above⟩ := by
  simp [children, getElem?_siblings]

/-- The children of a place carry the subtrees below it, in order. -/
theorem map_focus_children (place : Cursor α) :
    place.children.map focus = place.focus.children := by
  apply List.ext_getElem?
  intro position
  rw [List.getElem?_map, getElem?_children]
  cases place.focus.children[position]? <;> rfl

/-- Where a child splits the children of a place, its subtree splits the subtrees below it. -/
theorem focus_children_of_split (place child : Cursor α) (before after : List (Cursor α))
    (split : place.children = before ++ child :: after) :
    place.focus.children = before.map focus ++ child.focus :: after.map focus := by
  rw [← map_focus_children, split, List.map_append, List.map_cons]

theorem length_children (place : Cursor α) :
    place.children.length = place.focus.children.length := by
  rw [← map_focus_children, List.length_map]

/-- The child at a position goes up to the place itself and has that position as its index. -/
theorem parent_and_index_of_child (place child : Cursor α) (position : Nat)
    (found : place.children[position]? = some child) :
    child.parent = some place ∧ child.index = position := by
  rw [getElem?_children] at found
  obtain ⟨tree, here, rfl⟩ := Option.map_eq_some_iff.mp found
  obtain ⟨inside, value⟩ := List.getElem?_eq_some_iff.mp here
  have whole :
      place.focus.children.take position ++ tree :: place.focus.children.drop (position + 1) =
        place.focus.children := by
    rw [← value, List.getElem_cons_drop, List.take_append_drop]
  constructor
  · obtain ⟨⟨label, trees⟩, above⟩ := place
    simp only [parent, List.reverse_reverse]
    rw [whole]
    rfl
  · simp only [index, List.length_reverse, List.length_take]
    omega

/-- A place with a parent stands in a frame, and the parent is what the frame makes of the focus. -/
theorem eq_of_parent (place enclosing : Cursor α) (up : place.parent = some enclosing) :
    ∃ focus frame above, place = ⟨focus, frame :: above⟩ ∧
      enclosing =
        ⟨.node frame.label (frame.before.reverse ++ focus :: frame.after), above⟩ := by
  obtain ⟨focus, frames⟩ := place
  cases frames with
  | nil => simp [parent] at up
  | cons frame above => exact ⟨focus, frame, above, rfl, (Option.some.inj up).symm⟩

/-- A place is the child of its parent at its index. -/
theorem child_at_index (place enclosing : Cursor α) (up : place.parent = some enclosing) :
    enclosing.children[place.index]? = some place := by
  obtain ⟨focus, frame, above, rfl, rfl⟩ := eq_of_parent place enclosing up
  have past : frame.before.reverse.drop (frame.before.length + 1) = [] := by simp
  rw [getElem?_children]
  simp [index, past, Tree.children, label, Tree.label, List.drop_append]

/-- A place is a child of exactly its parent. -/
theorem mem_children_iff (child place : Cursor α) :
    child ∈ place.children ↔ child.parent = some place := by
  constructor
  · intro member
    obtain ⟨position, found⟩ := List.mem_iff_getElem?.mp member
    exact (parent_and_index_of_child place child position found).1
  · intro up
    exact List.mem_iff_getElem?.mpr ⟨child.index, child_at_index child place up⟩

/-- One step up takes one frame off. -/
theorem length_above_of_parent (place enclosing : Cursor α) (up : place.parent = some enclosing) :
    place.above.length = enclosing.above.length + 1 := by
  obtain ⟨focus, frame, above, rfl, rfl⟩ := eq_of_parent place enclosing up
  rfl

/-- A place and its parent lie in the same tree. -/
theorem tree_of_parent (place enclosing : Cursor α) (up : place.parent = some enclosing) :
    place.tree = enclosing.tree := by
  obtain ⟨focus, frame, above, rfl, rfl⟩ := eq_of_parent place enclosing up
  rfl

/-- Only the root has no parent. -/
theorem eq_top_of_parent_none (place : Cursor α) (root : place.parent = none) :
    place = top place.tree := by
  obtain ⟨focus, frames⟩ := place
  cases frames with
  | nil => rfl
  | cons frame above => simp [parent] at root

/-- The sibling before a place is the child just before it. -/
theorem getLast?_take_index (place enclosing : Cursor α) (up : place.parent = some enclosing) :
    (enclosing.children.take place.index).getLast? = place.previous := by
  obtain ⟨focus, frame, above, rfl, rfl⟩ := eq_of_parent place enclosing up
  obtain ⟨name, before, after⟩ := frame
  cases before with
  | nil => simp [index, previous]
  | cons sibling before =>
    simp only [index, List.length_cons, previous]
    rw [List.getLast?_take, if_neg (Nat.succ_ne_zero _), Nat.add_sub_cancel, getElem?_children]
    simp [Tree.children, label, Tree.label, List.drop_append]

/-- A child that splits the children of a place lies in it, and the nearest child before it is its
previous sibling. -/
theorem previous_of_split (place child : Cursor α) (before after : List (Cursor α))
    (split : place.children = before ++ child :: after) :
    child.parent = some place ∧ child.previous = before.getLast? := by
  have found : place.children[before.length]? = some child := by simp [split]
  obtain ⟨up, index⟩ := parent_and_index_of_child place child before.length found
  refine ⟨up, ?_⟩
  rw [← getLast?_take_index child place up, index, split, List.take_left]

/-- The frames of a child hold what is in focus at its siblings. -/
theorem above_of_split (enclosing child : Cursor α) (before after : List (Cursor α))
    (split : enclosing.children = before ++ child :: after) :
    child.above =
      ⟨enclosing.label, (before.map focus).reverse, after.map focus⟩ :: enclosing.above := by
  have found : enclosing.children[before.length]? = some child := by simp [split]
  have past : (before.map focus).drop (before.length + 1) = [] := by simp
  rw [getElem?_children, focus_children_of_split enclosing child before after split] at found
  obtain ⟨tree, -, same⟩ := Option.map_eq_some_iff.mp found
  rw [← same]
  simp [past, List.drop_append]

/-- Siblings lie in the same place. -/
theorem parent_of_previous (place sibling : Cursor α) (before : place.previous = some sibling) :
    ∃ enclosing, place.parent = some enclosing ∧ sibling.parent = some enclosing := by
  obtain ⟨focus, frames⟩ := place
  cases frames with
  | nil => simp [previous] at before
  | cons frame above =>
    obtain ⟨label, earlier, after⟩ := frame
    cases earlier with
    | nil => simp [previous] at before
    | cons nearest earlier =>
      obtain rfl := Option.some.inj before
      exact ⟨_, rfl, by simp [parent]⟩

/-- The last child ends the list of children. -/
theorem getLast?_children (place : Cursor α) : place.children.getLast? = place.last := by
  rw [List.getLast?_eq_getElem?, getElem?_children, length_children]
  unfold last
  cases reversed : place.focus.children.reverse with
  | nil =>
    have empty := List.reverse_eq_nil_iff.mp reversed
    simp [empty]
  | cons child before =>
    have whole : place.focus.children = before.reverse ++ [child] := by
      simpa using congrArg List.reverse reversed
    simp [whole]

/-! ## Ancestors -/

/-- What holds at every root and is handed on to every child holds at every place. -/
theorem parent_induction {motive : Cursor α → Prop}
    (root : ∀ place, place.parent = none → motive place)
    (step : ∀ place enclosing, place.parent = some enclosing →
      motive enclosing → motive place) (place : Cursor α) : motive place := by
  obtain ⟨focus, frames⟩ := place
  induction frames generalizing focus with
  | nil => exact root _ rfl
  | cons frame above inductionHypothesis => exact step _ _ rfl (inductionHypothesis _)

/-- The ancestors are the parent and then its ancestors. -/
theorem ancestors_of_parent (place enclosing : Cursor α) (up : place.parent = some enclosing) :
    place.ancestors = enclosing :: enclosing.ancestors := by
  obtain ⟨focus, frame, above, rfl, rfl⟩ := eq_of_parent place enclosing up
  rfl

theorem ancestors_of_root (place : Cursor α) (root : place.parent = none) :
    place.ancestors = [] := by
  rw [eq_top_of_parent_none place root]
  rfl

/-- The parent is the nearest ancestor. -/
theorem head?_ancestors (place : Cursor α) : place.ancestors.head? = place.parent := by
  obtain ⟨focus, frames⟩ := place
  cases frames <;> rfl

/-- The ancestors of a place lie in the same tree. -/
theorem tree_of_mem_ancestors (place enclosing : Cursor α)
    (member : enclosing ∈ place.ancestors) :
    enclosing.tree = place.tree := by
  induction place using parent_induction with
  | root place top => simp [ancestors_of_root place top] at member
  | step place nearest up inductionHypothesis =>
    rw [ancestors_of_parent place nearest up] at member
    rw [tree_of_parent place nearest up]
    rcases List.mem_cons.mp member with rfl | further
    · rfl
    · exact inductionHypothesis further

/-- An ancestor stands in fewer frames. -/
theorem length_above_of_mem_ancestors (place enclosing : Cursor α)
    (member : enclosing ∈ place.ancestors) : enclosing.above.length < place.above.length := by
  induction place using parent_induction with
  | root place top => simp [ancestors_of_root place top] at member
  | step place nearest up inductionHypothesis =>
    have above := length_above_of_parent place nearest up
    rw [ancestors_of_parent place nearest up] at member
    rcases List.mem_cons.mp member with rfl | further
    · omega
    · have := inductionHypothesis further
      omega

/-- The frames hold the labels of the ancestors. -/
theorem map_label_ancestors (place : Cursor α) : place.ancestors.map label = place.enclosing := by
  obtain ⟨focus, frames⟩ := place
  simp only [ancestors, enclosing]
  induction frames generalizing focus with
  | nil => rfl
  | cons frame above inductionHypothesis =>
    simp only [ancestorsAbove, List.map_cons]
    rw [inductionHypothesis]
    rfl

/-! ## Walks -/

/-- A stack is walked from the top, each place with all that is below it before the next. -/
theorem walkAll_eq_flatMap (stack : List (Cursor α)) : walkAll stack = stack.flatMap walk := by
  induction stack with
  | nil => simp [walkAll]
  | cons place rest inductionHypothesis =>
    have split := walkAll_append [place] rest
    rw [List.singleton_append] at split
    rw [split, inductionHypothesis]
    rfl

/-- A walk lists the place and then what lies below each child in turn. -/
theorem walk_eq (place : Cursor α) : place.walk = place :: place.children.flatMap walk := by
  rw [walk, walkAll, List.append_nil, walkAll_eq_flatMap]

theorem mem_walk_iff (place start : Cursor α) :
    place ∈ start.walk ↔ place = start ∨
      ∃ child ∈ start.children, place ∈ child.walk := by
  rw [walk_eq]
  simp

/-- What holds at a place as soon as it holds at all its children holds at every place. -/
theorem children_induction {motive : Cursor α → Prop}
    (step : ∀ place, (∀ child ∈ place.children, motive child) → motive place)
    (place : Cursor α) : motive place := by
  induction size : place.focus.size using Nat.strongRecOn generalizing place with
  | ind bound inductionHypothesis =>
    apply step
    intro child member
    refine inductionHypothesis child.focus.size ?_ child rfl
    have below : child.focus ∈ place.focus.children := by
      rw [← map_focus_children]
      exact List.mem_map_of_mem member
    have smaller := Tree.size_le_sizeAll child.focus place.focus.children below
    have here := place.focus.size_eq
    omega

/-- What holds at a place and is handed on to children holds throughout the walk. -/
theorem walk_invariant {motive : Cursor α → Prop}
    (step : ∀ place, motive place → ∀ child ∈ place.children, motive child)
    (start : Cursor α) (here : motive start) : ∀ place ∈ start.walk, motive place := by
  induction start using children_induction with
  | step start inductionHypothesis =>
    intro place member
    rcases (mem_walk_iff place start).mp member with rfl | ⟨child, below, member⟩
    · exact here
    · exact inductionHypothesis child below (step start here child below) place member

theorem self_mem_walk (place : Cursor α) : place ∈ place.walk :=
  (mem_walk_iff place place).mpr (Or.inl rfl)

/-- Every place of a walk lies in the same tree. -/
theorem tree_of_mem_walk (place start : Cursor α) (member : place ∈ start.walk) :
    place.tree = start.tree := by
  refine walk_invariant (motive := fun place => place.tree = start.tree) ?_ start rfl place member
  intro place same child below
  rw [tree_of_parent child place ((mem_children_iff child place).mp below), same]

/-- The children of a listed place are listed as well. -/
theorem child_mem_walk (place start child : Cursor α) (member : place ∈ start.walk)
    (below : child ∈ place.children) : child ∈ start.walk := by
  induction start using children_induction with
  | step start inductionHypothesis =>
    rcases (mem_walk_iff place start).mp member with rfl | ⟨first, firstBelow, member⟩
    · exact (mem_walk_iff child place).mpr (Or.inr ⟨child, below, self_mem_walk child⟩)
    · exact (mem_walk_iff child start).mpr
        (Or.inr ⟨first, firstBelow, inductionHypothesis first firstBelow member⟩)

/-- A walk lists its start and the places that have the start among their ancestors. -/
theorem mem_walk_iff_mem_ancestors (place start : Cursor α) :
    place ∈ start.walk ↔ place = start ∨ start ∈ place.ancestors := by
  constructor
  · refine walk_invariant (motive := fun place => place = start ∨ start ∈ place.ancestors)
      ?_ start (Or.inl rfl) place
    intro place inside child below
    rw [ancestors_of_parent child place ((mem_children_iff child place).mp below), List.mem_cons]
    rcases inside with rfl | above
    · exact Or.inr (Or.inl rfl)
    · exact Or.inr (Or.inr above)
  · rintro (rfl | above)
    · exact self_mem_walk place
    · induction place using parent_induction with
      | root place top => simp [ancestors_of_root place top] at above
      | step place nearest up inductionHypothesis =>
        have below := (mem_children_iff place nearest).mpr up
        rw [ancestors_of_parent place nearest up] at above
        rcases List.mem_cons.mp above with rfl | further
        · exact child_mem_walk start start place (self_mem_walk start) below
        · exact child_mem_walk nearest start place (inductionHypothesis further) below

/-- The indices of a place and of its ancestors, the nearest one first. -/
def address (place : Cursor α) : List Nat :=
  place.above.map fun frame => frame.before.length

theorem address_of_parent (place enclosing : Cursor α) (up : place.parent = some enclosing) :
    place.address = place.index :: enclosing.address := by
  obtain ⟨focus, frame, above, rfl, rfl⟩ := eq_of_parent place enclosing up
  rfl

/-- The address of every listed place ends in the address of the start. -/
theorem address_suffix (place start : Cursor α) (member : place ∈ start.walk) :
    start.address <:+ place.address := by
  refine walk_invariant (motive := fun place => start.address <:+ place.address) ?_ start
    List.suffix_rfl place member
  intro place inside child below
  rw [address_of_parent child place ((mem_children_iff child place).mp below)]
  exact inside.trans (List.suffix_cons _ _)

/-- Walks from different children of one place have no place in common: the addresses in them end in
different addresses of one length. -/
theorem walks_of_children_disjoint (place : Cursor α) :
    place.children.Pairwise fun first second => first.walk.Disjoint second.walk := by
  rw [List.pairwise_iff_getElem]
  intro i j insideFirst insideSecond before common fromFirst fromSecond
  obtain ⟨upFirst, firstIndex⟩ := parent_and_index_of_child place _ i
    (List.getElem?_eq_getElem insideFirst)
  obtain ⟨upSecond, secondIndex⟩ := parent_and_index_of_child place _ j
    (List.getElem?_eq_getElem insideSecond)
  have first := address_suffix _ _ fromFirst
  have second := address_suffix _ _ fromSecond
  rw [address_of_parent _ _ upFirst, firstIndex] at first
  rw [address_of_parent _ _ upSecond, secondIndex] at second
  have nested : (i :: place.address) <:+ (j :: place.address) :=
    List.suffix_of_suffix_length_le first second (by simp)
  have same := nested.eq_of_length (by simp)
  have : i = j := (List.cons.inj same).1
  omega

/-- A walk lists no place twice. -/
theorem walk_nodup (place : Cursor α) : place.walk.Nodup := by
  induction place using children_induction with
  | step place inductionHypothesis =>
    rw [walk_eq, List.nodup_cons, List.nodup_flatMap]
    refine ⟨?_, inductionHypothesis, walks_of_children_disjoint place⟩
    intro again
    obtain ⟨child, below, member⟩ := List.mem_flatMap.mp again
    have shorter := (address_suffix place child member).length_le
    rw [address_of_parent child place ((mem_children_iff child place).mp below),
      List.length_cons] at shorter
    omega

/-- The walk of a place is a contiguous part of the walk of its whole tree. -/
theorem walk_contiguous (place : Cursor α) : place.walk <:+: (top place.tree).walk := by
  obtain ⟨focus, frames⟩ := place
  induction frames generalizing focus with
  | nil => exact List.infix_rfl
  | cons frame above inductionHypothesis =>
    have up : (⟨focus, frame :: above⟩ : Cursor α).parent =
      some ⟨.node frame.label (frame.before.reverse ++ focus :: frame.after), above⟩ := rfl
    have outer :=
      inductionHypothesis (.node frame.label (frame.before.reverse ++ focus :: frame.after))
    obtain ⟨earlier, later, split⟩ := List.append_of_mem ((mem_children_iff _ _).mpr up)
    have inner := walk_eq
      (⟨.node frame.label (frame.before.reverse ++ focus :: frame.after), above⟩ : Cursor α)
    rw [split, List.flatMap_append, List.flatMap_cons, ← List.cons_append,
      ← List.append_assoc] at inner
    exact List.IsInfix.trans ⟨_, _, inner.symm⟩ outer

/-- Every place is listed in the walk of its tree. -/
theorem mem_walk_top (place : Cursor α) : place ∈ (top place.tree).walk :=
  (walk_contiguous place).subset (self_mem_walk place)

/-! ## Children in the walk of the tree -/

variable [DecidableEq α]

/-- Below a child there are no further children of the same place: they would stand too deep. -/
theorem filter_parent_walk_child (place child : Cursor α) (below : child ∈ place.children) :
    child.walk.filter (fun other => decide (other.parent = some place)) = [child] := by
  have up := (mem_children_iff child place).mp below
  rw [walk_eq, List.filter_cons_of_pos (by simpa using up)]
  simp only [List.cons.injEq, true_and, List.filter_eq_nil_iff, decide_eq_true_eq]
  intro other member same
  obtain ⟨grandchild, furtherBelow, member⟩ := List.mem_flatMap.mp member
  have deeper := (address_suffix other grandchild member).length_le
  rw [address_of_parent _ _ ((mem_children_iff _ _).mp furtherBelow), address_of_parent _ _ up,
    address_of_parent _ _ same] at deeper
  simp only [List.length_cons] at deeper
  omega

/-- The places with a given parent in the walk from it are its children in order. -/
theorem filter_parent_own_walk (place : Cursor α) :
    place.walk.filter (fun other => decide (other.parent = some place)) = place.children := by
  have self : place.parent ≠ some place := by
    intro up
    have deeper := length_above_of_parent place place up
    omega
  rw [walk_eq, List.filter_cons_of_neg (by simpa using self), List.filter_flatMap]
  calc place.children.flatMap _ = place.children.flatMap fun child => [child] :=
        List.flatMap_congr fun child member => filter_parent_walk_child place child member
    _ = place.children := List.flatMap_singleton' _

/-- The places with a given parent, in the order of the walk of the tree, are its children in order.
A child that is listed outside the walk of its parent would be listed twice. -/
theorem filter_parent_walk (place : Cursor α) :
    (top place.tree).walk.filter (fun other => decide (other.parent = some place)) =
      place.children := by
  obtain ⟨earlier, later, split⟩ := walk_contiguous place
  have distinct := walk_nodup (top place.tree)
  rw [← split, List.append_assoc, List.nodup_append', List.nodup_append',
    List.disjoint_append_right] at distinct
  obtain ⟨-, ⟨-, -, apartLater⟩, apartEarlier, -⟩ := distinct
  have inside (other : Cursor α) (up : other.parent = some place) : other ∈ place.walk :=
    child_mem_walk place place other (self_mem_walk place) ((mem_children_iff other place).mpr up)
  have noneEarlier : earlier.filter (fun other => decide (other.parent = some place)) = [] := by
    rw [List.filter_eq_nil_iff]
    intro other member up
    exact apartEarlier member (inside other (by simpa using up))
  have noneLater : later.filter (fun other => decide (other.parent = some place)) = [] := by
    rw [List.filter_eq_nil_iff]
    intro other member up
    exact apartLater (inside other (by simpa using up)) member
  rw [← split, List.filter_append, List.filter_append, noneEarlier, noneLater,
    filter_parent_own_walk, List.nil_append, List.append_nil]

/-- The children before a place are those at smaller positions. -/
theorem takeWhile_children (place enclosing : Cursor α) (up : place.parent = some enclosing) :
    enclosing.children.takeWhile (fun other => decide (other ≠ place)) =
      enclosing.children.take place.index := by
  obtain ⟨inside, here⟩ := List.getElem?_eq_some_iff.mp (child_at_index place enclosing up)
  have distinct : enclosing.children.Nodup :=
    filter_parent_own_walk enclosing ▸ (walk_nodup enclosing).filter _
  apply List.takeWhile_ne_eq _ _ (enclosing.children.drop (place.index + 1)) place distinct
  conv_lhs => rw [← List.take_append_drop place.index enclosing.children,
    List.drop_eq_getElem_cons inside, here]

/-- The sibling before a place is the last of the places listed before it that have its parent. -/
theorem getLast?_filter_takeWhile (place enclosing : Cursor α)
    (up : place.parent = some enclosing) :
    (((top place.tree).walk.takeWhile fun other => decide (other ≠ place)).filter
      fun other => decide (other.parent = some enclosing)).getLast? = place.previous := by
  have stops : (fun other => !decide (other.parent = some enclosing) || decide (other ≠ place)) =
      fun other => decide (other ≠ place) := by
    funext other
    by_cases same : other = place
    · simp [same, up]
    · simp [same]
  have siblings := List.takeWhile_filter (l := (top place.tree).walk)
    (p := fun other => decide (other.parent = some enclosing))
    (q := fun other => decide (other ≠ place))
  rw [stops, tree_of_parent place enclosing up, filter_parent_walk] at siblings
  rw [tree_of_parent place enclosing up, ← siblings, takeWhile_children place enclosing up,
    getLast?_take_index place enclosing up]

end Cursor

end StraySemicolon

import StraySemicolon.Proofs.Conversion
import StraySemicolon.Proofs.Verdict

/-!
# Where concrete nodes go

A concrete node is kept when it has a node of its own in the syntax tree. `ConcretePlace.isKept`
says which ones are, without a look at the syntax tree: the root, and every node that is neither
trivia nor a wrapper and lies in no trivia. In the same way `up?`, `before?` and `last?` name the
parent, the sibling before and the last child of the converted node among the nodes of the concrete
tree.

A wrapper has no node of its own, but its children have, in the gap that the wrapper leaves among
its siblings. The proofs therefore follow what every concrete place contributes: one place for a
kept node, none for trivia, and for a wrapper what its children contribute. The frames of these
places come from the concrete frames by `framesOf`.
-/

namespace StraySemicolon

namespace Cursor

variable {α : Type}

/-- The places of trees that fill the gap of a frame, in order. -/
def fill (outer : List (Frame α)) (gap : Frame α) : List (Tree α) → List (Cursor α)
  | [] => []
  | tree :: rest =>
    ⟨tree, ⟨gap.label, gap.before, rest ++ gap.after⟩ :: outer⟩ ::
      fill outer ⟨gap.label, tree :: gap.before, gap.after⟩ rest

/-- Trees fill a gap one part after the other. -/
theorem fill_append (outer : List (Frame α)) (gap : Frame α) (first second : List (Tree α)) :
    fill outer gap (first ++ second) =
      fill outer ⟨gap.label, gap.before, second ++ gap.after⟩ first ++
        fill outer ⟨gap.label, first.reverse ++ gap.before, gap.after⟩ second := by
  induction first generalizing gap with
  | nil => rfl
  | cons tree rest inductionHypothesis =>
    simp [fill, inductionHypothesis]

/-- The children of a node fill a gap with nothing to either side. -/
theorem siblings_eq_fill (label : α) (outer : List (Frame α)) (before trees : List (Tree α)) :
    siblings label outer before trees = fill outer ⟨label, before, []⟩ trees := by
  induction trees generalizing before with
  | nil => rfl
  | cons tree rest inductionHypothesis => simp [siblings, fill, inductionHypothesis]

end Cursor

/-- A place in a concrete tree. -/
abbrev ConcretePlace := Cursor ConcreteNode

namespace ConcretePlace

/-! ## Kept nodes -/

/-- Whether nothing encloses the node. -/
def isRoot (place : ConcretePlace) : Bool :=
  place.parent.isNone

/-- Whether no enclosing node is trivia. The root is not asked. -/
def isClear (place : ConcretePlace) : Bool :=
  place.ancestors.all fun enclosing => isRoot enclosing || !enclosing.label.isTrivia

/-- Whether the node has a node of its own in the syntax tree. -/
def isKept (place : ConcretePlace) : Bool :=
  isRoot place || (!place.label.isTrivia && !place.label.isWrapper && isClear place)

/-- The nearest enclosing node that is kept. -/
def up? (place : ConcretePlace) : Option ConcretePlace :=
  place.ancestors.find? isKept

/-- The last node that is listed before this one and is kept directly below the same node. -/
def before? (place : ConcretePlace) : Option ConcretePlace :=
  (((Cursor.top place.tree).walk.takeWhile fun other => decide (other ≠ place)).filter
    fun other => isKept other && decide (up? other = up? place)).getLast?

/-- The last node that is kept directly below this one. -/
def last? (place : ConcretePlace) : Option ConcretePlace :=
  ((Cursor.top place.tree).walk.filter
    fun other => isKept other && decide (up? other = some place)).getLast?

/-- A kept node is the root, or it is no wrapper, is not trivia and lies in no trivia. -/
theorem isKept_iff (place : ConcretePlace) :
    isKept place = true ↔ isRoot place = true ∨
      place.label.isTrivia = false ∧ place.label.isWrapper = false ∧ isClear place = true := by
  simp [isKept, and_assoc]

/-! ## The places of the converted nodes -/

/-- The frames around the members of a node before any of them is there. A wrapper opens no frame of
its own, unless it is the root. -/
def opened (node : ConcreteNode) (root : Bool) (outer : List (Frame SyntaxNode)) :
    List (Frame SyntaxNode) :=
  if !root && node.isWrapper then outer
  else ⟨.ofConcrete (outer.head?.map fun frame => frame.label.kind) node, [], []⟩ :: outer

/-- A gap with the conversions of concrete siblings put to its sides. The nearest of the siblings
before comes first. -/
def narrow (before after : List ConcreteTree) (gap : Frame SyntaxNode) : Frame SyntaxNode where
  label := gap.label
  before := (SyntaxTree.below gap.label.kind before.reverse).reverse ++ gap.before
  after := SyntaxTree.below gap.label.kind after ++ gap.after

/-- The frames around what a concrete node with the given frames contributes. -/
def framesOf : List (Frame ConcreteNode) → List (Frame SyntaxNode)
  | [] => []
  | frame :: above =>
    (opened frame.label above.isEmpty (framesOf above)).modifyHead (narrow frame.before frame.after)

/-- The place of the converted node of a kept node. -/
def converted (place : ConcretePlace) : Place :=
  ⟨SyntaxTree.convert
    ((framesOf place.above).head?.map fun frame => frame.label.kind) place.focus,
    framesOf place.above⟩

/-- The places of all that a concrete node puts directly into the gap it stands in. -/
def contributed (place : ConcretePlace) : List Place :=
  match framesOf place.above with
  | [] => [converted place]
  | gap :: outer => Cursor.fill outer gap (SyntaxTree.contribution gap.label.kind place.focus)

theorem isRoot_eq (place : ConcretePlace) : isRoot place = place.above.isEmpty := by
  obtain ⟨focus, frames⟩ := place
  cases frames <;> rfl

theorem opened_ne_nil (node : ConcreteNode) (above : List (Frame ConcreteNode))
    (outer : List (Frame SyntaxNode)) (inside : above ≠ [] → outer ≠ []) :
    opened node above.isEmpty outer ≠ [] := by
  unfold opened
  split
  case isTrue wraps =>
    apply inside
    rintro rfl
    simp at wraps
  case isFalse => simp

/-- Below the root there always is a gap to stand in. -/
theorem framesOf_ne_nil (above : List (Frame ConcreteNode)) (below : above ≠ []) :
    framesOf above ≠ [] := by
  induction above with
  | nil => exact absurd rfl below
  | cons frame above inductionHypothesis =>
    rw [framesOf, Ne, List.modifyHead_eq_nil_iff]
    exact opened_ne_nil frame.label above (framesOf above) inductionHypothesis

/-- Siblings contribute to one gap, each of them between what the others contribute. -/
theorem flatMap_contributed_siblings (node : ConcreteNode) (above : List (Frame ConcreteNode))
    (gap : Frame SyntaxNode) (outer : List (Frame SyntaxNode))
    (start : opened node above.isEmpty (framesOf above) = gap :: outer)
    (before trees : List ConcreteTree) :
    (Cursor.siblings node above before trees).flatMap contributed =
      Cursor.fill outer (narrow before [] gap) (SyntaxTree.below gap.label.kind trees) := by
  induction trees generalizing before with
  | nil => rfl
  | cons tree rest inductionHypothesis =>
    have frames :
        framesOf (⟨node, before, rest⟩ :: above) = narrow before rest gap :: outer := by
      rw [framesOf, start]
      rfl
    have here : contributed ⟨tree, ⟨node, before, rest⟩ :: above⟩ =
        Cursor.fill outer (narrow before rest gap)
          (SyntaxTree.contribution gap.label.kind tree) := by
      rw [contributed, frames]
      rfl
    rw [Cursor.siblings, List.flatMap_cons, here, inductionHypothesis, SyntaxTree.below,
      Cursor.fill_append]
    congr 1
    simp [narrow, SyntaxTree.below_append, SyntaxTree.below]

/-- The children of a node fill the gap that it opens. -/
theorem flatMap_contributed_children (place : ConcretePlace) (gap : Frame SyntaxNode)
    (outer : List (Frame SyntaxNode))
    (start : opened place.label place.above.isEmpty (framesOf place.above) = gap :: outer) :
    place.children.flatMap contributed =
      Cursor.fill outer gap (SyntaxTree.below gap.label.kind place.focus.children) := by
  rw [Cursor.children, flatMap_contributed_siblings _ _ gap outer start]
  rfl

/-- The children of a converted node are what the concrete children contribute. -/
theorem children_converted (place : ConcretePlace) (kept : isKept place = true) :
    (converted place).children = place.children.flatMap contributed := by
  have fresh : (!place.above.isEmpty && place.label.isWrapper) = false := by
    rw [← isRoot_eq]
    rcases (isKept_iff place).mp kept with root | ⟨-, stays, -⟩
    · simp [root]
    · simp [stays]
  rw [flatMap_contributed_children place _ _ (by rw [opened, fresh]; rfl), Cursor.children,
    Cursor.siblings_eq_fill]
  rfl

theorem contributed_of_trivia (place : ConcretePlace) (below : isRoot place = false)
    (dropped : place.label.isTrivia = true) : contributed place = [] := by
  obtain ⟨⟨node, trees⟩, above⟩ := place
  have dropped : node.isTrivia = true := dropped
  obtain ⟨gap, outer, frames⟩ := List.exists_cons_of_ne_nil
    (framesOf_ne_nil above (by rintro rfl; simp [isRoot, Cursor.parent] at below))
  simp [contributed, frames, SyntaxTree.contribution, dropped, Cursor.fill]

/-- A wrapper leaves its gap to its children. -/
theorem contributed_of_wrapper (place : ConcretePlace) (below : isRoot place = false)
    (notDropped : place.label.isTrivia = false) (wraps : place.label.isWrapper = true) :
    contributed place = place.children.flatMap contributed := by
  obtain ⟨⟨node, trees⟩, above⟩ := place
  have notDropped : node.isTrivia = false := notDropped
  have wraps : node.isWrapper = true := wraps
  rw [isRoot_eq] at below
  obtain ⟨gap, outer, frames⟩ := List.exists_cons_of_ne_nil
    (framesOf_ne_nil above (by rintro rfl; simp at below))
  have start : opened node above.isEmpty (framesOf above) = gap :: outer := by
    have below : above.isEmpty = false := below
    simp [opened, below, wraps, frames]
  rw [flatMap_contributed_children ⟨.node node trees, above⟩ gap outer start]
  simp [contributed, frames, SyntaxTree.contribution, notDropped, wraps, Tree.children]

/-- A kept node contributes the place of its own converted node. -/
theorem contributed_of_kept (place : ConcretePlace) (kept : isKept place = true) :
    contributed place = [converted place] := by
  obtain ⟨⟨node, trees⟩, above⟩ := place
  cases frames : framesOf above with
  | nil => simp [contributed, frames]
  | cons gap outer =>
    have below : isRoot ⟨.node node trees, above⟩ = false := by
      rw [isRoot_eq]
      cases above with
      | nil => simp [framesOf] at frames
      | cons => rfl
    rw [isKept, below, Bool.false_or, Bool.and_eq_true, Bool.and_eq_true] at kept
    obtain ⟨⟨notDropped, stays⟩, -⟩ := kept
    have notDropped : node.isTrivia = false := by simpa [Cursor.label, Tree.label] using notDropped
    have stays : node.isWrapper = false := by simpa [Cursor.label, Tree.label] using stays
    simp [contributed, frames, SyntaxTree.contribution, notDropped, stays, Cursor.fill, converted,
      SyntaxTree.convert, SyntaxNode.ofConcrete, Tree.label, Tree.children]

/-! ## The walk of the syntax tree -/

theorem isRoot_of_parent (place enclosing : ConcretePlace) (up : place.parent = some enclosing) :
    isRoot place = false := by
  rw [isRoot, up]
  rfl

/-- A node is clear if the node around it is, and is not trivia itself unless it is the root. -/
theorem isClear_of_parent (place enclosing : ConcretePlace) (up : place.parent = some enclosing) :
    isClear place = ((isRoot enclosing || !enclosing.label.isTrivia) && isClear enclosing) := by
  rw [isClear, Cursor.ancestors_of_parent place enclosing up, List.all_cons]
  rfl

theorem isClear_of_isKept (place : ConcretePlace) (kept : isKept place = true) :
    isClear place = true := by
  rcases (isKept_iff place).mp kept with root | ⟨-, -, clear⟩
  · have top : place.parent = none := by simpa [isRoot] using root
    rw [isClear, Cursor.ancestors_of_root place top]
    rfl
  · exact clear

/-- Children of a kept node are clear. -/
theorem isClear_child_of_isKept (place enclosing : ConcretePlace)
    (up : place.parent = some enclosing) (kept : isKept enclosing = true) :
    isClear place = true := by
  rw [isClear_of_parent place enclosing up, isClear_of_isKept enclosing kept, Bool.and_true]
  rcases (isKept_iff enclosing).mp kept with root | ⟨notDropped, -, -⟩
  · simp [root]
  · simp [notDropped]

/-- Clear nodes that are not kept are trivia or wrappers below the root. -/
theorem trivia_or_wrapper_of_not_isKept (place : ConcretePlace) (clear : isClear place = true)
    (gone : isKept place = false) :
    isRoot place = false ∧
      (place.label.isTrivia = true ∨ place.label.isTrivia = false ∧
        place.label.isWrapper = true) := by
  rw [isKept, clear] at gone
  revert gone
  cases isRoot place <;> cases place.label.isTrivia <;> cases place.label.isWrapper <;> simp

/-- Nothing at or below trivia is kept. -/
theorem not_isKept_of_trivia (start : ConcretePlace) (below : isRoot start = false)
    (dropped : start.label.isTrivia = true) : ∀ place ∈ start.walk, isKept place = false := by
  have buried : ∀ place ∈ start.walk, isRoot place = false ∧
      (place.label.isTrivia = true ∨ isClear place = false) := by
    refine Cursor.walk_invariant ?_ start ⟨below, Or.inl dropped⟩
    rintro place ⟨notRoot, reason⟩ child member
    have up := (Cursor.mem_children_iff child place).mp member
    refine ⟨isRoot_of_parent child place up, Or.inr ?_⟩
    rw [isClear_of_parent child place up, notRoot, Bool.false_or]
    rcases reason with trivia | unclear
    · simp [trivia]
    · simp [unclear]
  intro place member
  obtain ⟨notRoot, trivia | unclear⟩ := buried place member
  · simp [isKept, notRoot, trivia]
  · simp [isKept, notRoot, unclear]

/-- The kept nodes at or below a clear place go, in order, to the places at or below what it
contributes.

The induction goes down the concrete tree. A kept node goes to one place, whose children are what
the concrete children contribute; a wrapper contributes what its children do; trivia contribute
nothing and hold nothing that is kept. -/
theorem map_converted_walk (place : ConcretePlace) (clear : isClear place = true) :
    (place.walk.filter isKept).map converted = (contributed place).flatMap Cursor.walk := by
  induction place using Cursor.children_induction with
  | step place inductionHypothesis =>
    have spread (clear : ∀ child ∈ place.children, isClear child = true) :
        ((place.children.flatMap Cursor.walk).filter isKept).map converted =
          (place.children.flatMap contributed).flatMap Cursor.walk := by
      rw [List.filter_flatMap, List.map_flatMap, List.flatMap_assoc]
      exact List.flatMap_congr fun child member =>
        inductionHypothesis child member (clear child member)
    rw [Cursor.walk_eq]
    cases kept : isKept place with
    | true =>
      rw [List.filter_cons_of_pos kept, List.map_cons, contributed_of_kept place kept,
        List.flatMap_singleton, Cursor.walk_eq (converted place), children_converted place kept,
        spread]
      intro child member
      exact isClear_child_of_isKept child place
        ((Cursor.mem_children_iff child place).mp member) kept
    | false =>
      obtain ⟨below, trivia | ⟨notDropped, wraps⟩⟩ :=
        trivia_or_wrapper_of_not_isKept place clear kept
      · have nothing := not_isKept_of_trivia place below trivia
        rw [Cursor.walk_eq] at nothing
        rw [contributed_of_trivia place below trivia, List.filter_eq_nil_iff.mpr]
        · rfl
        · intro other member
          simp [nothing other member]
      · rw [List.filter_cons_of_neg (by simp [kept]),
          contributed_of_wrapper place below notDropped wraps, spread]
        intro child member
        rw [isClear_of_parent child place ((Cursor.mem_children_iff child place).mp member), clear,
          notDropped]
        simp

theorem converted_top (tree : ConcreteTree) :
    converted (Cursor.top tree) = Cursor.top (SyntaxTree.ofConcrete tree) := by
  rw [SyntaxTree.ofConcrete_eq]
  rfl

/-- The walk of the syntax tree lists the converted nodes of the kept nodes. -/
theorem walk_ofConcrete (tree : ConcreteTree) :
    (Cursor.top (SyntaxTree.ofConcrete tree)).walk =
      ((Cursor.top tree).walk.filter isKept).map converted := by
  rw [map_converted_walk (Cursor.top tree) rfl]
  have root : contributed (Cursor.top tree) = [converted (Cursor.top tree)] := rfl
  rw [root, List.flatMap_singleton, converted_top]

/-- A converted node stands in the converted tree. -/
theorem tree_converted (place : ConcretePlace) (kept : isKept place = true) :
    (converted place).tree = SyntaxTree.ofConcrete place.tree := by
  have listed : converted place ∈ (Cursor.top (SyntaxTree.ofConcrete place.tree)).walk := by
    rw [walk_ofConcrete]
    exact List.mem_map_of_mem (List.mem_filter.mpr ⟨Cursor.mem_walk_top place, kept⟩)
  exact Cursor.tree_of_mem_walk _ _ listed

/-- Kept nodes of one tree go to different places. -/
theorem converted_inj (first second : ConcretePlace) (same : first.tree = second.tree)
    (keptFirst : isKept first = true) (keptSecond : isKept second = true) :
    converted first = converted second ↔ first = second := by
  have distinct := Cursor.walk_nodup (Cursor.top (SyntaxTree.ofConcrete second.tree))
  rw [walk_ofConcrete] at distinct
  constructor
  · refine List.inj_on_of_nodup_map distinct (List.mem_filter.mpr ⟨?_, keptFirst⟩)
      (List.mem_filter.mpr ⟨Cursor.mem_walk_top second, keptSecond⟩)
    exact same ▸ Cursor.mem_walk_top first
  · rintro rfl
    rfl

/-! ## Moves between converted nodes -/

/-- Of the nodes around a concrete place, exactly the kept ones go to the nodes around what it
contributes. -/
theorem ancestors_of_contributed (place : ConcretePlace) (clear : isClear place = true) :
    ∀ target ∈ contributed place,
      target.ancestors = (place.ancestors.filter isKept).map converted := by
  induction place using Cursor.parent_induction with
  | root place top =>
    intro target member
    rw [contributed_of_kept place (by simp [isKept, isRoot, top]), List.mem_singleton] at member
    obtain rfl := member
    have bare : place.above = [] := by simpa [isRoot, top] using isRoot_eq place
    rw [Cursor.ancestors_of_root place top, Cursor.ancestors_of_root (converted place)]
    · rfl
    · simp [converted, bare, framesOf, Cursor.parent]
  | step place enclosing up inductionHypothesis =>
    intro target member
    have handedOn : target ∈ enclosing.children.flatMap contributed :=
      List.mem_flatMap.mpr ⟨place, (Cursor.mem_children_iff place enclosing).mpr up, member⟩
    have around : isClear enclosing = true := by
      rw [isClear_of_parent place enclosing up, Bool.and_eq_true] at clear
      exact clear.2
    rw [Cursor.ancestors_of_parent place enclosing up]
    cases kept : isKept enclosing with
    | true =>
      rw [← children_converted enclosing kept, Cursor.mem_children_iff] at handedOn
      rw [Cursor.ancestors_of_parent target _ handedOn, List.filter_cons_of_pos kept, List.map_cons,
        inductionHypothesis around (converted enclosing)]
      rw [contributed_of_kept enclosing kept]
      exact List.mem_singleton_self _
    | false =>
      obtain ⟨below, trivia | ⟨notDropped, wraps⟩⟩ :=
        trivia_or_wrapper_of_not_isKept enclosing around kept
      · rw [isClear_of_parent place enclosing up, below, trivia] at clear
        simp at clear
      · rw [List.filter_cons_of_neg (by simp [kept])]
        apply inductionHypothesis around
        rw [contributed_of_wrapper enclosing below notDropped wraps]
        exact handedOn

/-- The nodes around a converted node are the converted nodes of the kept nodes around it. -/
theorem ancestors_converted (place : ConcretePlace) (kept : isKept place = true) :
    (converted place).ancestors = (place.ancestors.filter isKept).map converted := by
  apply ancestors_of_contributed place (isClear_of_isKept place kept)
  rw [contributed_of_kept place kept]
  exact List.mem_singleton_self _

/-- The parent of a converted node is the converted node of the nearest kept node around it. -/
theorem parent_converted (place : ConcretePlace) (kept : isKept place = true) :
    (converted place).parent = (up? place).map converted := by
  rw [← Cursor.head?_ancestors, ancestors_converted place kept, List.head?_map, List.head?_filter]
  rfl

/-- A kept node goes directly below the converted node of another one if and only if that one is the
nearest kept node around it. -/
theorem parent_converted_iff (place enclosing : ConcretePlace) (same : place.tree = enclosing.tree)
    (kept : isKept place = true) (keptEnclosing : isKept enclosing = true) :
    (converted place).parent = some (converted enclosing) ↔ up? place = some enclosing := by
  rw [parent_converted place kept, Option.map_eq_some_iff]
  constructor
  · rintro ⟨nearest, found, meet⟩
    have inside := Cursor.tree_of_mem_ancestors place nearest (List.mem_of_find?_eq_some found)
    rw [found, (converted_inj nearest enclosing (inside.trans same) (List.find?_some found)
      keptEnclosing).mp meet]
  · intro found
    exact ⟨enclosing, found, rfl⟩

/-- Among listed places, those that go directly below a converted node are the kept ones that the
concrete tree has directly below the kept node. -/
theorem filter_parent_map_converted (enclosing : ConcretePlace)
    (keptEnclosing : isKept enclosing = true)
    (places : List ConcretePlace) (listed : ∀ place ∈ places, place.tree = enclosing.tree) :
    ((places.filter isKept).map converted).filter
        (fun target => decide (target.parent = some (converted enclosing))) =
      (places.filter fun place => isKept place && decide (up? place = some enclosing)).map
        converted := by
  rw [List.filter_map, List.filter_filter]
  congr 1
  apply List.filter_congr
  intro place member
  cases kept : isKept place with
  | true =>
    simp [parent_converted_iff place enclosing (listed place member) kept keptEnclosing]
  | false => simp

/-- The last child of a converted node is the converted node of the last node kept directly
below. -/
theorem last_converted (place : ConcretePlace) (kept : isKept place = true) :
    (converted place).last = (last? place).map converted := by
  rw [← Cursor.getLast?_children, ← Cursor.filter_parent_walk, tree_converted place kept,
    walk_ofConcrete, filter_parent_map_converted place kept, List.getLast?_map]
  · rfl
  · intro other member
    exact Cursor.tree_of_mem_walk other (Cursor.top place.tree) member

/-- The sibling before a converted node is the converted node of the last node that is listed before
and kept directly below the same node. -/
theorem previous_converted (place enclosing : ConcretePlace) (kept : isKept place = true)
    (found : up? place = some enclosing) :
    (converted place).previous = (before? place).map converted := by
  have keptEnclosing : isKept enclosing = true := List.find?_some found
  have same : enclosing.tree = place.tree :=
    Cursor.tree_of_mem_ancestors place enclosing (List.mem_of_find?_eq_some found)
  have up := (parent_converted_iff place enclosing same.symm kept keptEnclosing).mpr found
  obtain ⟨earlier, later, split⟩ := List.append_of_mem (Cursor.mem_walk_top place)
  have concrete := List.takeWhile_ne_eq _ earlier later place (Cursor.walk_nodup _) split
  have syntactic : (Cursor.top (converted place).tree).walk =
      (earlier.filter isKept).map converted ++
        converted place :: (later.filter isKept).map converted := by
    rw [tree_converted place kept, walk_ofConcrete, split, List.filter_append,
      List.filter_cons_of_pos kept, List.map_append, List.map_cons]
  rw [← Cursor.getLast?_filter_takeWhile (converted place) (converted enclosing) up,
    List.takeWhile_ne_eq _ _ _ _ (Cursor.walk_nodup _) syntactic,
    filter_parent_map_converted enclosing keptEnclosing, List.getLast?_map, before?,
      concrete, found]
  intro other member
  rw [same]
  apply Cursor.tree_of_mem_walk other (Cursor.top place.tree)
  rw [split]
  exact List.mem_append_left _ member

/-! ## Kinds of converted nodes -/

/-- The enclosing kinds of a converted node are the kinds of the converted nodes of the kept nodes
around it. -/
theorem enclosingKinds_converted (place : ConcretePlace) (kept : isKept place = true) :
    (converted place).enclosingKinds =
      (place.ancestors.filter isKept).map fun enclosing => (converted enclosing).kind := by
  rw [← Place.map_kind_ancestors, ancestors_converted place kept, List.map_map]
  rfl

/-- A converted node is listed under the converted node of the nearest kept node. -/
theorem head?_enclosingKinds_converted (place : ConcretePlace) (kept : isKept place = true) :
    (converted place).enclosingKinds.head? =
      (up? place).map fun enclosing => (converted enclosing).kind := by
  rw [enclosingKinds_converted place kept, List.head?_map, List.head?_filter]
  rfl

/-- The kind of a converted node is that of its rule below the node it is listed under. -/
theorem kind_converted (place : ConcretePlace) :
    (converted place).kind = .ofType place.label.type (converted place).enclosingKinds.head? := by
  obtain ⟨⟨node, trees⟩, above⟩ := place
  simp only [converted, Place.enclosingKinds, Cursor.enclosing, List.head?_map, Option.map_map]
  rfl

/-- The kind of a converted node is that of its rule below the converted node of the nearest kept
node. -/
theorem kind_converted_of_up (place enclosing : ConcretePlace) (kept : isKept place = true)
    (found : up? place = some enclosing) :
    (converted place).kind = .ofType place.label.type (some (converted enclosing).kind) := by
  rw [kind_converted, head?_enclosingKinds_converted place kept, found]
  rfl

end ConcretePlace

end StraySemicolon

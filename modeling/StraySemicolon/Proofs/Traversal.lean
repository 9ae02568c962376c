import Mathlib.Data.List.Nodup
import StraySemicolon.Proofs.LinkedConversion

/-!
# Walks and ancestors

A walk goes down from a node with a stack, and the ancestors are found on the way up along the
parents. The two have nothing in common but the tree, and yet each can be read off the other: a node
is an ancestor of exactly the other nodes in its walk, and in the walk of the whole tree the
ancestors of a node stand before it, the root first.

`Links.Lists` and `Links.Climbs` are the two loops on linked nodes. They are relations, so that
nothing is said beforehand of whether the loops end. On well-formed nodes they do, and they list the
nodes of `Cursor.walk` and `Cursor.ancestors`.
-/

namespace StraySemicolon

namespace Cursor

variable {α : Type}

/-! ## The walk of a place in the walk of its tree -/

/-- A walk lists the places that children lead to. -/
theorem mem_walk_iff_within (place start : Cursor α) :
    place ∈ start.walk ↔ (links α).Within start place := by
  constructor
  · refine walk_invariant (motive := (links α).Within start) ?_ start .root place
    intro place inside child below
    exact .child inside below
  · intro inside
    induction inside with
    | root => exact self_mem_walk start
    | child _ below inductionHypothesis => exact child_mem_walk _ start _ inductionHypothesis below

/-- The walks of a stack take one round for each node. -/
theorem length_walkAll (stack : List (Cursor α)) : (walkAll stack).length = weight stack := by
  fun_induction walkAll stack with
  | case1 => rfl
  | case2 place stack inductionHypothesis =>
    rw [List.length_cons, inductionHypothesis, weight_append, children, weight_siblings, weight,
      Tree.size_eq place.focus]
    omega

/-- No place is its own ancestor. -/
theorem not_mem_own_ancestors (place : Cursor α) : place ∉ place.ancestors := by
  intro above
  exact Nat.lt_irrefl _ (length_above_of_mem_ancestors place place above)

/-- A place is an ancestor of exactly the other places in its walk. -/
theorem mem_ancestors_iff (place other : Cursor α) :
    place ∈ other.ancestors ↔ other ∈ place.walk ∧ other ≠ place := by
  rw [mem_walk_iff_mem_ancestors]
  constructor
  · intro above
    refine ⟨Or.inr above, ?_⟩
    rintro rfl
    exact not_mem_own_ancestors other above
  · rintro ⟨same | above, apart⟩
    · exact absurd same apart
    · exact above

/-- The walk of the tree lists the ancestors of a place, the root first, and then the place with all
that is below it without a gap. One step down adds the parent to the ancestors and splits the
parent's walk. -/
theorem walk_top_split (place : Cursor α) :
    ∃ before after, (top place.tree).walk = before ++ place.walk ++ after ∧
      place.ancestors.reverse.Sublist before := by
  induction place using parent_induction with
  | root place root =>
    refine ⟨[], [], ?_, ?_⟩
    · rw [← eq_top_of_parent_none place root, List.nil_append, List.append_nil]
    · rw [ancestors_of_root place root]
      exact List.Sublist.refl []
  | step place enclosing up inductionHypothesis =>
    obtain ⟨before, after, outer, passed⟩ := inductionHypothesis
    obtain ⟨earlier, later, split⟩ :=
      List.append_of_mem ((mem_children_iff place enclosing).mpr up)
    refine ⟨before ++ enclosing :: earlier.flatMap walk, later.flatMap walk ++ after, ?_, ?_⟩
    · rw [tree_of_parent place enclosing up, outer, walk_eq enclosing, split, List.flatMap_append,
        List.flatMap_cons]
      simp only [List.append_assoc, List.cons_append]
    · rw [ancestors_of_parent place enclosing up, List.reverse_cons]
      exact passed.append ((List.nil_sublist _).cons_cons enclosing)

/-- The laws that tie the walk of a place to its subtree, to the ancestors of places and to the walk
of the whole tree. -/
structure TraversedAt (place : Cursor α) : Prop where
  /-- The place comes first, and then what lies below each child in turn. -/
  unfolds : place.walk = place :: place.children.flatMap walk
  /-- All that children lead to is listed, and nothing else. -/
  covers : ∀ other, other ∈ place.walk ↔ (links α).Within place other
  once : place.walk.Nodup
  /-- There are as many rounds as the subtree has nodes. -/
  rounds : place.walk.length = place.focus.size
  /-- The place is an ancestor of exactly the other listed ones. -/
  dual : ∀ other, place ∈ other.ancestors ↔ other ∈ place.walk ∧ other ≠ place
  /-- The walk is a part of the walk of the tree without a gap. All ancestors are listed before it,
  in the reverse of the order in which they are met on the way up. -/
  segment : ∃ before after, (top place.tree).walk = before ++ place.walk ++ after ∧
    place.ancestors.reverse.Sublist before

theorem traversedAt (place : Cursor α) : place.TraversedAt where
  unfolds := walk_eq place
  covers other := mem_walk_iff_within other place
  once := walk_nodup place
  rounds := by rw [walk, length_walkAll, weight, weight, Nat.add_zero]
  dual := mem_ancestors_iff place
  segment := walk_top_split place

end Cursor

namespace Links

variable {α ν : Type} {links : Links α ν}

/-! ## The loops on linked nodes -/

/-- From a stack, whose top is at its end, the loop of a walk lists exactly the given nodes and is
done. A round takes the top off, lists it and puts its children on the stack, the last one first. -/
inductive Lists (links : Links α ν) : List ν → List ν → Prop where
  | done : Lists links [] []
  | round {stack node rest} (top : stack.getLast? = some node)
      (onward : Lists links (stack.dropLast ++ (links.children node).reverse) rest) :
      Lists links stack (node :: rest)

/-- From a node, or from none, the way up passes exactly the given nodes and is done. -/
inductive Climbs (links : Links α ν) : Option ν → List ν → Prop where
  | done : Climbs links none []
  | step {node rest} (onward : Climbs links (links.parent node) rest) :
      Climbs links (some node) (node :: rest)

theorem Lists.unique {stack listed others : List ν} (first : links.Lists stack listed)
    (second : links.Lists stack others) : listed = others := by
  induction first generalizing others with
  | done =>
    cases second with
    | done => rfl
    | round top => simp at top
  | round top onward inductionHypothesis =>
    cases second with
    | done => simp at top
    | round otherTop further =>
      obtain rfl := Option.some.inj (top.symm.trans otherTop)
      rw [inductionHypothesis further]

theorem Climbs.unique {start : Option ν} {passed others : List ν}
    (first : links.Climbs start passed) (second : links.Climbs start others) : passed = others := by
  induction first generalizing others with
  | done =>
    cases second
    rfl
  | step onward inductionHypothesis =>
    cases second with
    | step further => rw [inductionHypothesis further]

namespace StandFor

variable {tree : Tree α} {node : Cursor α → ν} (standFor : links.StandFor tree node)
include standFor

/-- From the nodes of places, the loop lists the nodes of what is at or below these places. The
stack of the loop is kept the other way round. -/
theorem lists_walkAll (stack : List (Cursor α)) (inside : ∀ place ∈ stack, place.tree = tree) :
    links.Lists (stack.map node).reverse ((Cursor.walkAll stack).map node) := by
  fun_induction Cursor.walkAll stack with
  | case1 => exact .done
  | case2 place stack inductionHypothesis =>
    have here := inside place List.mem_cons_self
    have later : ∀ other ∈ place.children ++ stack, other.tree = tree := by
      intro other member
      rcases List.mem_append.mp member with below | waiting
      · exact (Cursor.tree_of_parent other place
          ((Cursor.mem_children_iff other place).mp below)).trans here
      · exact inside other (List.mem_cons_of_mem _ waiting)
    rw [List.map_cons, List.map_cons, List.reverse_cons]
    apply Lists.round List.getLast?_concat
    rw [List.dropLast_concat, standFor.children place here, ← List.reverse_append,
      ← List.map_append]
    exact inductionHypothesis later

/-- The walk from the node of a place ends, and it lists the nodes of the walk of the place. -/
theorem lists_iff (place : Cursor α) (inside : place.tree = tree) (listed : List ν) :
    links.Lists [node place] listed ↔ listed = place.walk.map node := by
  have walked := standFor.lists_walkAll [place] (by simpa using inside)
  constructor
  · intro run
    exact run.unique walked
  · rintro rfl
    exact walked

theorem climbs_ancestors (place : Cursor α) (inside : place.tree = tree) :
    links.Climbs (links.parent (node place)) (place.ancestors.map node) := by
  rw [standFor.parent place inside]
  induction place using Cursor.parent_induction with
  | root place root =>
    rw [root, Cursor.ancestors_of_root place root]
    exact .done
  | step place enclosing up inductionHypothesis =>
    have outside := (Cursor.tree_of_parent place enclosing up).symm.trans inside
    rw [up, Cursor.ancestors_of_parent place enclosing up]
    apply Climbs.step
    rw [standFor.parent enclosing outside]
    exact inductionHypothesis outside

/-- The way up from the node of a place ends, and it passes the nodes of the ancestors. -/
theorem climbs_iff (place : Cursor α) (inside : place.tree = tree) (passed : List ν) :
    links.Climbs (links.parent (node place)) passed ↔ passed = place.ancestors.map node := by
  have climbed := standFor.climbs_ancestors place inside
  constructor
  · intro run
    exact run.unique climbed
  · rintro rfl
    exact climbed

end StandFor

end Links

/-- Walks and ancestors are dual. At every place of a tree the walk lists the place and then the
walks of its children, the subtree of the place and no node twice; the place is an ancestor of
exactly the other listed places; and its walk is a part, without a gap, of the walk of the tree,
before which its ancestors are listed from the root on. So it is with well-formed linked nodes: each
is the node of one place, the loop of the walk ends and lists the nodes of the walk, and the way up
ends and passes the nodes of the ancestors. The conversion makes well-formed nodes. -/
theorem walks_and_ancestors_are_dual :
    (∀ (α : Type) (tree : Tree α), ∀ place ∈ (Cursor.top tree).walk,
      place.tree = tree ∧ place.TraversedAt) ∧
    (∀ (α ν : Type) (links : Links α ν) (root : ν) (tree : Tree α),
      links.WellFormed root tree → (∀ node, links.Within root node ↔
        ∃ place ∈ (Cursor.top tree).walk, links.nodeOf root place = node) ∧
      (∀ place ∈ (Cursor.top tree).walk, ∀ other ∈ (Cursor.top tree).walk,
        links.nodeOf root place = links.nodeOf root other → place = other) ∧
      ∀ place ∈ (Cursor.top tree).walk,
        (∀ listed, links.Lists [links.nodeOf root place] listed ↔
          listed = place.walk.map (links.nodeOf root)) ∧
        ∀ passed, links.Climbs (links.parent (links.nodeOf root place)) passed ↔
          passed = place.ancestors.map (links.nodeOf root)) ∧
    ∀ tree : ConcreteTree,
      (SyntaxTree.linked tree).WellFormed 0 (SyntaxTree.ofConcrete tree) := by
  refine ⟨?_, ?_, SyntaxTree.linked_wellFormed⟩
  · intro α tree place listed
    exact ⟨Cursor.tree_of_mem_walk place (Cursor.top tree) listed, place.traversedAt⟩
  · intro α ν links root tree wellFormed
    have standFor := wellFormed.standFor
    have inside (place : Cursor α) (listed : place ∈ (Cursor.top tree).walk) :
        place.tree = tree :=
      Cursor.tree_of_mem_walk place (Cursor.top tree) listed
    refine ⟨standFor.within_iff, ?_, ?_⟩
    · intro place listed other otherListed same
      exact standFor.injective place other (inside place listed) (inside other otherListed) same
    · intro place listed
      exact ⟨standFor.lists_iff place (inside place listed),
        standFor.climbs_iff place (inside place listed)⟩

/-- The tree of a field with a name and a semicolon. -/
def fieldTree : Tree Kind :=
  .node .fieldDef [.node .other [], .node .semi []]

theorem linkedField_wellFormed : linkedField.WellFormed 0 fieldTree where
  correct := linkedField_correct
  top := rfl
  first := rfl
  holds := by
    have leaf (node : Fin 3) (bare : linkedField.children node = []) :
        linkedField.Holds node (.node (linkedField.label node) []) :=
      .node (by rw [bare]; rfl) (by simp [bare])
    refine .node rfl ?_
    intro position child tree found stored
    match position with
    | 0 =>
      obtain rfl := Option.some.inj found
      obtain rfl := Option.some.inj stored
      exact leaf 1 rfl
    | 1 =>
      obtain rfl := Option.some.inj found
      obtain rfl := Option.some.inj stored
      exact leaf 2 rfl
    | position + 2 => cases found

/-- The walk from the field lists the field, its name and its semicolon, and the way up from the
semicolon passes the field. The field is the ancestor of the semicolon, and the walk of the
semicolon ends the walk of the field. -/
theorem traversal_of_linkedField :
    let field := Cursor.top fieldTree
    let semicolon := field.follow [.last]
    linkedField.WellFormed 0 fieldTree ∧ field ∈ field.walk ∧ semicolon ∈ field.walk ∧
    linkedField.Lists [0] [0, 1, 2] ∧ linkedField.Climbs (linkedField.parent 2) [0] ∧
    field ∈ semicolon.ancestors ∧
    ∃ before after, field.walk = before ++ semicolon.walk ++ after ∧
      [field].Sublist before := by
  intro field semicolon
  obtain ⟨places, nodes, -⟩ := walks_and_ancestors_are_dual
  obtain ⟨-, -, runs⟩ := nodes Kind (Fin 3) linkedField 0 fieldTree linkedField_wellFormed
  have fieldListed : field ∈ field.walk := Cursor.self_mem_walk field
  have semicolonListed : semicolon ∈ field.walk := Cursor.mem_walk_top semicolon
  have walk : field.walk.map (linkedField.nodeOf 0) = [0, 1, 2] := by
    rw [(places Kind fieldTree field fieldListed).2.unfolds]
    decide +kernel
  obtain ⟨-, laws⟩ := places Kind fieldTree semicolon semicolonListed
  refine ⟨linkedField_wellFormed, fieldListed, semicolonListed, ?_, ?_, ?_, laws.segment⟩
  · exact ((runs field fieldListed).1 _).mpr walk.symm
  · exact ((runs semicolon semicolonListed).2 _).mpr rfl
  · rw [(places Kind fieldTree field fieldListed).2.dual]
    exact ⟨semicolonListed, by decide⟩

end StraySemicolon

import StraySemicolon.Proofs.Relabelling
import StraySemicolon.Proofs.Verdict

/-!
# The nearest scope

Both questions about where a node lies are answered by a search from the node upwards, and each
search ends where it knows enough. The answers do not depend on how they are found. A node is in an
enum block if some enum is around it and no other scope with members of its own is around the node
but inside that enum. A node is outermost if it lies in no type declaration.

The same answers can be had the other way round. `SyntaxTree.passDown` goes through a tree once,
from the root downwards; every node hands its children two truth values, and what a node is handed
answers both questions about it.
-/

namespace StraySemicolon

/-! ## What the searches find -/

theorem Place.inEnumBlock_of_root (place : Place) (root : place.parent = none) :
    place.inEnumBlock = false := by
  rw [Cursor.eq_top_of_parent_none place root]
  rfl

/-- A node is in an enum block as its parent is, unless the parent is a scope itself. -/
theorem Place.inEnumBlock_of_parent (place enclosing : Place) (up : place.parent = some enclosing) :
    place.inEnumBlock =
      if enclosing.kind = .enumDef then true
      else if enclosing.kind.isEnumBarrier then false
      else enclosing.inEnumBlock := by
  rw [Place.inEnumBlock, Place.enclosingKinds_of_parent place enclosing up]
  cases enclosing.kind <;> rfl

/-- A node is in an enum block exactly if some enum is around it, and no other scope with members of
its own is both around the node and inside that enum. The induction goes up from parent to
parent. -/
theorem Place.inEnumBlock_iff (place : Place) :
    place.inEnumBlock = true ↔
      ∃ enum ∈ place.ancestors, Place.kind enum = .enumDef ∧
        ∀ between ∈ place.ancestors, enum ∈ between.ancestors →
          (Place.kind between).isEnumBarrier = false := by
  induction place using Cursor.parent_induction with
  | root place top => simp [Place.inEnumBlock_of_root place top, Cursor.ancestors_of_root place top]
  | step place nearest up inductionHypothesis =>
    rw [Place.inEnumBlock_of_parent place nearest up, Cursor.ancestors_of_parent place nearest up]
    by_cases isEnum : Place.kind nearest = .enumDef
    · simp only [isEnum, if_true, true_iff]
      refine ⟨nearest, List.mem_cons_self, isEnum, ?_⟩
      intro between around inside
      -- Nothing is around the node and inside its parent.
      have deeper := Cursor.length_above_of_mem_ancestors between nearest inside
      rcases List.mem_cons.mp around with rfl | further
      · omega
      · have := Cursor.length_above_of_mem_ancestors nearest between further
        omega
    · rw [if_neg isEnum]
      by_cases stops : (Place.kind nearest).isEnumBarrier = true
      · simp only [stops, if_true, Bool.false_eq_true, false_iff]
        rintro ⟨enum, around, found, clear⟩
        rcases List.mem_cons.mp around with rfl | further
        · exact isEnum found
        · have := clear nearest List.mem_cons_self further
          simp [stops] at this
      · rw [if_neg stops, inductionHypothesis]
        constructor
        · rintro ⟨enum, around, found, clear⟩
          refine ⟨enum, List.mem_cons_of_mem _ around, found, ?_⟩
          intro between outside inside
          rcases List.mem_cons.mp outside with rfl | further
          · simpa using stops
          · exact clear between further inside
        · rintro ⟨enum, around, found, clear⟩
          rcases List.mem_cons.mp around with rfl | further
          · exact absurd found isEnum
          · exact ⟨enum, further, found, fun between outside inside =>
              clear between (List.mem_cons_of_mem _ outside) inside⟩

/-- A node is outermost exactly if no ancestor is a type declaration. -/
theorem Place.isOutermost_iff (place : Place) :
    place.isOutermost = true ↔
      ∀ enclosing ∈ place.ancestors, Place.isTypeDefinition enclosing = false := by
  rw [Place.isOutermost, ← Place.map_kind_ancestors, List.any_map, Bool.not_eq_true',
    List.any_eq_false]
  simp only [Function.comp_apply, Bool.not_eq_true]
  rfl

/-- A node is outermost exactly if it is listed in the walk of no type declaration but itself. -/
theorem Place.isOutermost_iff_walk (place : Place) :
    place.isOutermost = true ↔
      ∀ declaration ∈ (Cursor.top place.tree).walk,
        Place.isTypeDefinition declaration = true →
        place ∈ declaration.walk → declaration = place := by
  rw [Place.isOutermost_iff]
  constructor
  · intro outermost declaration _ declares inside
    rcases (Cursor.mem_walk_iff_mem_ancestors place declaration).mp inside with rfl | above
    · rfl
    · simp [outermost declaration above] at declares
  · intro alone enclosing above
    by_contra declares
    have inside := (Cursor.mem_walk_iff_mem_ancestors place enclosing).mpr (Or.inr above)
    have listed : enclosing ∈ (Cursor.top place.tree).walk := by
      rw [← Cursor.tree_of_mem_ancestors place enclosing above]
      exact Cursor.mem_walk_top enclosing
    have same := alone enclosing listed (by simpa using declares) inside
    have deeper := Cursor.length_above_of_mem_ancestors place enclosing above
    rw [same] at deeper
    omega

/-- What is in an enum block is in a type declaration. -/
theorem Place.isOutermost_of_inEnumBlock (place : Place) (inEnum : place.inEnumBlock = true) :
    place.isOutermost = false := by
  obtain ⟨enum, above, found, -⟩ := (Place.inEnumBlock_iff place).mp inEnum
  by_contra outermost
  have := (Place.isOutermost_iff place).mp (by simpa using outermost) enum above
  simp [Place.isTypeDefinition, found, Kind.isTypeDefinition] at this

/-! ## One pass from the root downwards -/

/-- What a node is handed by its parent. -/
structure Surroundings where
  /-- Whether the nearest scope that matters to the search for an enum is one. -/
  inEnum : Bool
  /-- Whether a type declaration has been passed. -/
  insideType : Bool
deriving DecidableEq, Repr

namespace Surroundings

/-- What the root is handed. -/
def outside : Surroundings :=
  ⟨false, false⟩

/-- What a node hands on to its children. -/
def handOn (here : Surroundings) (kind : Kind) : Surroundings where
  inEnum := kind == .enumDef || (!kind.isEnumBarrier && here.inEnum)
  insideType := kind.isTypeDefinition || here.insideType

/-- The answers of the two searches for a node. -/
def searched (place : Place) : Surroundings :=
  ⟨place.inEnumBlock, !place.isOutermost⟩

end Surroundings

namespace SyntaxTree

mutual

/-- Every node with what it is handed on a pass from the root downwards. -/
def passDown (handed : Surroundings) : SyntaxTree → Tree (SyntaxNode × Surroundings)
  | .node label children => .node (label, handed) (passDownAll (handed.handOn label.kind) children)

/-- The passes through the children of a node. -/
def passDownAll (handed : Surroundings) :
    List SyntaxTree → List (Tree (SyntaxNode × Surroundings))
  | [] => []
  | first :: rest => passDown handed first :: passDownAll handed rest

end

theorem passDownAll_eq_map (handed : Surroundings) (trees : List SyntaxTree) :
    passDownAll handed trees = trees.map (passDown handed) := by
  induction trees with
  | nil => rfl
  | cons first rest inductionHypothesis => simp [passDownAll, inductionHypothesis]

mutual

/-- The pass leaves the tree as it is. -/
theorem map_fst_passDown (handed : Surroundings) : ∀ tree : SyntaxTree,
    (passDown handed tree).map Prod.fst = tree
  | .node label children => by
    rw [passDown, Tree.map, mapAll_fst_passDownAll _ children]

theorem mapAll_fst_passDownAll (handed : Surroundings) : ∀ trees : List SyntaxTree,
    Tree.mapAll Prod.fst (passDownAll handed trees) = trees
  | [] => rfl
  | first :: rest => by
    rw [passDownAll, Tree.mapAll, map_fst_passDown handed first, mapAll_fst_passDownAll handed rest]

end

end SyntaxTree

namespace Surroundings

/-- One step down: if a node is handed the answers about itself, it hands on those about its
children. -/
theorem searched_of_parent (place enclosing : Place) (up : place.parent = some enclosing) :
    searched place = (searched enclosing).handOn enclosing.kind := by
  have outermost : (!place.isOutermost) =
      (enclosing.kind.isTypeDefinition || !enclosing.isOutermost) := by
    rw [Place.isOutermost, Place.isOutermost, Place.enclosingKinds_of_parent place enclosing up,
      List.any_cons, Bool.not_not, Bool.not_not]
  rw [searched, outermost, Place.inEnumBlock_of_parent place enclosing up]
  cases enclosing.kind <;> rfl

/-- The whole pass: below a node that is handed the answers about itself, every node is. -/
theorem preorder_passDown (place : Place) :
    (SyntaxTree.passDown (searched place) place.focus).preorder =
      place.walk.map fun other => (other.label, searched other) := by
  induction place using Cursor.children_induction with
  | step place inductionHypothesis =>
    have shape : place.focus = .node place.label place.focus.children := by
      obtain ⟨⟨_, _⟩, _⟩ := place
      rfl
    have below : place.children.flatMap (fun child =>
          (SyntaxTree.passDown ((searched place).handOn (Place.kind place)) child.focus).preorder) =
        place.children.flatMap fun child =>
          child.walk.map fun other => (other.label, searched other) := by
      apply List.flatMap_congr
      intro child member
      rw [← inductionHypothesis child member,
        searched_of_parent child place ((Cursor.mem_children_iff child place).mp member)]
    rw [shape, SyntaxTree.passDown, Tree.preorder_node, SyntaxTree.passDownAll_eq_map,
      ← Cursor.map_focus_children, List.map_map, List.flatMap_map, Cursor.walk_eq, List.map_cons,
      List.map_flatMap, ← below]
    rfl

end Surroundings

/-- Where nodes lie. A node is in an enum block if and only if some proper ancestor is an enum and
no class, interface, annotation, record or new expression lies strictly between the two. It is
outermost if and only if no type declaration other than itself has it in its walk. Nothing is both.
And one pass from the root downwards, which hands two truth values from parent to child, finds both
answers for every node of the tree. -/
theorem nearest_scope_answers (tree : SyntaxTree) :
    (∀ place ∈ (Cursor.top tree).walk,
      (Place.inEnumBlock place = true ↔
        ∃ enum ∈ place.ancestors, Place.kind enum = .enumDef ∧
          ∀ between ∈ place.ancestors, enum ∈ between.ancestors →
            (Place.kind between).isEnumBarrier = false) ∧
      (Place.isOutermost place = true ↔
        ∀ declaration ∈ (Cursor.top tree).walk,
          (Place.kind declaration).isTypeDefinition = true →
          place ∈ declaration.walk → declaration = place) ∧
      (Place.inEnumBlock place = true → Place.isOutermost place = false)) ∧
    (SyntaxTree.passDown .outside tree).map Prod.fst = tree ∧
    (SyntaxTree.passDown .outside tree).preorder =
      (Cursor.top tree).walk.map fun place =>
        (place.label, ⟨Place.inEnumBlock place, !Place.isOutermost place⟩) := by
  refine ⟨?_, SyntaxTree.map_fst_passDown _ tree,
    Surroundings.preorder_passDown (Cursor.top tree)⟩
  intro place listed
  have lies : place.tree = tree := Cursor.tree_of_mem_walk place (Cursor.top tree) listed
  refine ⟨Place.inEnumBlock_iff place, ?_, Place.isOutermost_of_inEnumBlock place⟩
  rw [← lies]
  exact Place.isOutermost_iff_walk place

/-- The syntax tree of a class around an enum, with a semicolon in the body of a constant and
another one in an anonymous class in that body. Only the nodes that decide are there. -/
def classAroundEnum : SyntaxTree :=
  let node (kind : Kind) (children : List SyntaxTree) :=
    Tree.node ⟨kind, kind.name, 1, 1⟩ children
  node .classDef
    [node .enumDef [node .enumConstantDef [node .semi [], node .literalNew [node .semi []]]]]

/-- The semicolon of the constant is in the enum block, the one of the anonymous class is not, and
neither is outermost. The pass finds this for both of them. -/
theorem nearest_scope_in_classAroundEnum :
    let first := (Cursor.top classAroundEnum).follow [.first, .first, .first]
    let second := (Cursor.top classAroundEnum).follow [.first, .first, .last, .first]
    first ∈ (Cursor.top classAroundEnum).walk ∧ second ∈ (Cursor.top classAroundEnum).walk ∧
    (∃ enum ∈ first.ancestors, Place.kind enum = .enumDef ∧
      ∀ between ∈ first.ancestors, enum ∈ between.ancestors →
        (Place.kind between).isEnumBarrier = false) ∧
    Place.isOutermost first = false ∧ Place.inEnumBlock second = false ∧
    ¬ (∀ declaration ∈ (Cursor.top classAroundEnum).walk,
      (Place.kind declaration).isTypeDefinition = true → second ∈ declaration.walk →
        declaration = second) ∧
    (SyntaxTree.passDown .outside classAroundEnum).preorder.map Prod.snd =
      [⟨false, false⟩, ⟨false, true⟩, ⟨true, true⟩, ⟨true, true⟩, ⟨true, true⟩,
        ⟨false, true⟩] := by
  intro first second
  obtain ⟨answers, -, passed⟩ := nearest_scope_answers classAroundEnum
  have listedFirst : first ∈ (Cursor.top classAroundEnum).walk := Cursor.mem_walk_top first
  have listedSecond : second ∈ (Cursor.top classAroundEnum).walk := Cursor.mem_walk_top second
  obtain ⟨inEnum, -, apart⟩ := answers first listedFirst
  obtain ⟨-, outermost, -⟩ := answers second listedSecond
  have found : Place.inEnumBlock first = true := by decide
  have inside : Place.isOutermost second = false := by decide
  refine ⟨listedFirst, listedSecond, inEnum.mp found, apart found, by decide, ?_, ?_⟩
  · intro alone
    rw [outermost.mpr alone] at inside
    contradiction
  · simp only [passed, List.map_map, Function.comp_def]
    cbv

end StraySemicolon

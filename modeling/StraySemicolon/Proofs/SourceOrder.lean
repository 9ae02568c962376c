import StraySemicolon.Proofs.KeptPlaces
import StraySemicolon.Proofs.Relabelling
import StraySemicolon.Proofs.Transparency
import StraySemicolon.Proofs.Walker

/-!
# The order of the source

The walk of a syntax tree lists the kept nodes of the concrete tree, each once and in their order.
If a reader hands over a tree whose nodes begin one after the other, then so do the nodes of the
syntax tree, those of any kinds, and the issues that are raised at them. In that case the sort at
the end of a walk finds its work done. Nodes may well begin at one point, as a node and its first
child often do: the sort is stable, so even these issues stay in the order in which they were
raised.
-/

namespace StraySemicolon

/-- Whether a point does not come after another one. -/
def Point.NotAfter (first second : Point) : Prop :=
  first.row < second.row ∨ first.row = second.row ∧ first.column ≤ second.column

/-- Whether a node does not begin after another one. -/
def SyntaxNode.NotAfter (first second : SyntaxNode) : Prop :=
  first.line < second.line ∨ first.line = second.line ∧ first.column ≤ second.column

/-- Whether no node of a concrete tree begins before one that is listed earlier. -/
def ConcreteTree.IsInOrder (tree : ConcreteTree) : Prop :=
  tree.preorder.Pairwise fun first second => first.start.NotAfter second.start

/-- Whether a check reports nothing but the position of the node that it is shown. -/
def Check.ReportsInPlace (check : Check) : Prop :=
  ∀ place : Place, ∀ issue ∈ check.visit place,
    issue.line = place.label.line ∧ issue.col = place.label.column

/-! ## Nodes -/

/-- A converted node shows the rule and the start of its concrete node, counted from 1. -/
theorem ConcretePlace.label_converted (place : ConcretePlace) :
    (converted place).label.typeName = place.label.type ∧
      (converted place).label.line = place.label.start.row + 1 ∧
      (converted place).label.column = place.label.start.column + 1 := by
  obtain ⟨⟨node, children⟩, above⟩ := place
  exact ⟨rfl, rfl, rfl⟩

/-- The nodes of the syntax tree begin in the order in which they are walked. -/
theorem walk_inOrder (tree : ConcreteTree) (ordered : tree.IsInOrder) :
    (Cursor.top (SyntaxTree.ofConcrete tree)).walk.Pairwise
      fun first second => first.label.NotAfter second.label := by
  have listed : (Cursor.top tree).walk.Pairwise
      fun first second => first.label.start.NotAfter second.label.start := by
    rw [← List.pairwise_map (R := fun first second : ConcreteNode =>
      first.start.NotAfter second.start), Cursor.map_label_walk]
    exact ordered
  rw [ConcretePlace.walk_ofConcrete, List.pairwise_map]
  refine (listed.filter _).imp ?_
  intro first second before
  obtain ⟨-, line, column⟩ := ConcretePlace.label_converted first
  obtain ⟨-, otherLine, otherColumn⟩ := ConcretePlace.label_converted second
  unfold Point.NotAfter at before
  unfold SyntaxNode.NotAfter
  omega

/-! ## Issues -/

/-- Where nodes are walked in order and checks report in place, issues are raised in order. -/
theorem raised_inOrder (checks : List Check) (inPlace : ∀ check ∈ checks, check.ReportsInPlace)
    (tree : SyntaxTree) (ordered : (Cursor.top tree).walk.Pairwise
      fun first second => first.label.NotAfter second.label) :
    (Walk.raised checks tree).Pairwise fun first second => first.notAfter second = true := by
  have position (place : Place) (issue : Issue) (raised : issue ∈ Walk.raisedAt checks place) :
      issue.line = place.label.line ∧ issue.col = place.label.column := by
    obtain ⟨check, asked, found⟩ := List.mem_flatMap.mp raised
    exact inPlace check (List.mem_of_mem_filter asked) place issue found
  have notAfter_iff (first second : Issue) : first.notAfter second = true ↔
      first.line < second.line ∨ first.line = second.line ∧ first.col ≤ second.col := by
    simp [Issue.notAfter]
  rw [Walk.raised_eq_flatMap, List.pairwise_flatMap]
  constructor
  · intro place _
    -- All issues of one place are at one position.
    apply List.pairwise_of_forall_mem_list
    intro first memberFirst second memberSecond
    obtain ⟨line, column⟩ := position place first memberFirst
    obtain ⟨otherLine, otherColumn⟩ := position place second memberSecond
    rw [notAfter_iff]
    omega
  · refine ordered.imp ?_
    intro place later before first memberFirst second memberSecond
    obtain ⟨line, column⟩ := position place first memberFirst
    obtain ⟨otherLine, otherColumn⟩ := position later second memberSecond
    unfold SyntaxNode.NotAfter at before
    rw [notAfter_iff]
    omega

theorem Walk.firsts_sublist (raised : List Issue) : (firsts raised).Sublist raised := by
  have listed := (List.filter_sublist (l := raised.zipIdx)
    (p := fun listed => !repeatsBefore raised listed.2 listed.1)).map Prod.fst
  rwa [List.zipIdx_map_fst] at listed

/-- Where issues are raised in order, the sort at the end of a walk changes nothing. -/
theorem issues_run_of_inOrder (checks : List Check) (tree : SyntaxTree)
    (ordered :
      (Walk.raised checks tree).Pairwise fun first second => first.notAfter second = true) :
    (Walk.run checks tree).issues = Walk.firsts (Walk.raised checks tree) := by
  rw [Walk.run_eq]
  exact List.mergeSort_of_pairwise (ordered.sublist (Walk.firsts_sublist _))

/-- Conversion loses nothing, repeats nothing and keeps the order. The walk of the syntax tree
lists, one by one, what is converted from the kept nodes among the nodes of the concrete tree in
preorder, each with the rule and the start of its concrete node. Hence, if no concrete node begins
before one that is listed earlier, this holds of the nodes of the syntax tree and of those of any
kinds, and checks that report in place have their issues reported in the order in which they are
first raised. -/
theorem conversion_keeps_order :
    (∀ tree : ConcreteTree,
      (Cursor.top tree).walk.map Cursor.label = tree.preorder ∧
      (Cursor.top (SyntaxTree.ofConcrete tree)).walk =
        ((Cursor.top tree).walk.filter ConcretePlace.isKept).map ConcretePlace.converted ∧
      (Cursor.top (SyntaxTree.ofConcrete tree)).walk.Nodup ∧
      ∀ place : ConcretePlace,
        (ConcretePlace.converted place).label.typeName = place.label.type ∧
        (ConcretePlace.converted place).label.line = place.label.start.row + 1 ∧
        (ConcretePlace.converted place).label.column = place.label.start.column + 1) ∧
    ∀ tree : ConcreteTree, tree.IsInOrder →
      (Cursor.top (SyntaxTree.ofConcrete tree)).walk.Pairwise
        (fun first second => first.label.NotAfter second.label) ∧
      (∀ kinds : List Kind, (SyntaxTree.ofKinds (SyntaxTree.ofConcrete tree) kinds).Pairwise
        fun first second => first.label.NotAfter second.label) ∧
      ∀ checks : List Check, (∀ check ∈ checks, check.ReportsInPlace) →
        (Walk.run checks (SyntaxTree.ofConcrete tree)).issues =
          Walk.firsts (Walk.raised checks (SyntaxTree.ofConcrete tree)) := by
  constructor
  · intro tree
    exact ⟨Cursor.map_label_walk _, ConcretePlace.walk_ofConcrete tree, Cursor.walk_nodup _,
      ConcretePlace.label_converted⟩
  · intro tree ordered
    have walked := walk_inOrder tree ordered
    refine ⟨walked, fun kinds => walked.filter _, ?_⟩
    intro checks inPlace
    exact issues_run_of_inOrder checks _ (raised_inOrder checks inPlace _ walked)

/-- A check that finds something at every body and at every opening brace. -/
def openings (kind : String) : Check where
  name := kind
  kinds := [.objBlock, .lcurly]
  visit place := [.atNode kind place.label ""]

theorem openings_reportsInPlace (kind : String) : (openings kind).ReportsInPlace := by
  intro place issue raised
  rw [List.mem_singleton.mp raised]
  exact ⟨rfl, rfl⟩

/-- In the padded enum, the body begins with its brace and the wrapper with its first semicolon. Two
checks that report in place are reported as they are asked, not by the names of their findings. -/
theorem paddedEnum_keeps_order :
    let checks := [openings "second", openings "first"]
    paddedEnum.IsInOrder ∧
    (SyntaxTree.ofKinds (SyntaxTree.ofConcrete paddedEnum) [.semi, .rcurly]).Pairwise
      (fun first second => first.label.NotAfter second.label) ∧
    (∀ check ∈ checks, check.ReportsInPlace) ∧
    (Walk.run checks (SyntaxTree.ofConcrete paddedEnum)).issues =
      Walk.firsts (Walk.raised checks (SyntaxTree.ofConcrete paddedEnum)) ∧
    (Walk.run checks (SyntaxTree.ofConcrete paddedEnum)).issues =
      [⟨"second", 1, 1, ""⟩, ⟨"first", 1, 1, ""⟩] := by
  intro checks
  have ordered : paddedEnum.IsInOrder := by
    have listed : paddedEnum.preorder.map ConcreteNode.start =
        [⟨0, 0⟩, ⟨0, 0⟩, ⟨0, 1⟩, ⟨0, 2⟩, ⟨0, 2⟩, ⟨0, 2⟩, ⟨0, 2⟩,
          ⟨0, 3⟩, ⟨0, 4⟩] := by
      cbv
    rw [ConcreteTree.IsInOrder, ← List.pairwise_map (R := Point.NotAfter), listed]
    simp [Point.NotAfter]
  have inPlace : ∀ check ∈ checks, check.ReportsInPlace := by
    intro check member
    simp only [checks, List.mem_cons, List.not_mem_nil, or_false] at member
    rcases member with rfl | rfl <;> exact openings_reportsInPlace _
  obtain ⟨-, kinds, reported⟩ := conversion_keeps_order.2 paddedEnum ordered
  have raised : Walk.raised checks (SyntaxTree.ofConcrete paddedEnum) =
      [⟨"second", 1, 1, ""⟩, ⟨"first", 1, 1, ""⟩, ⟨"second", 1, 1, ""⟩,
        ⟨"first", 1, 1, ""⟩] := by
    rw [ofConcrete_paddedEnum, Walk.raised_eq_flatMap]
    cbv
  refine ⟨ordered, kinds _, inPlace, reported checks inPlace, ?_⟩
  rw [reported checks inPlace, raised]
  decide

end StraySemicolon

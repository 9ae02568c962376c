import StraySemicolon.Check.MemberSemicolon
import StraySemicolon.Proofs.Cursor

/-!
# What a verdict reads

Of the tree around a semicolon the check reads little: the kinds of the enclosing nodes, the kind of
the sibling before the semicolon, and the kind of that sibling's last child. `redundantAfter`
decides from these alone, and `visit_eq` says that the check decides the same.
-/

namespace StraySemicolon

/-- A node lies in its parent and in everything its parent lies in. -/
theorem Place.enclosingKinds_of_parent (place enclosing : Place)
    (up : place.parent = some enclosing) :
    place.enclosingKinds = enclosing.kind :: enclosing.enclosingKinds := by
  rw [Place.enclosingKinds, ← Cursor.map_label_ancestors,
    Cursor.ancestors_of_parent place enclosing up, List.map_cons, Cursor.map_label_ancestors]
  rfl

/-- The kinds of the enclosing nodes are those of the ancestors. -/
theorem Place.map_kind_ancestors (place : Place) :
    place.ancestors.map Place.kind = place.enclosingKinds := by
  rw [Place.enclosingKinds, ← Cursor.map_label_ancestors, List.map_map]
  rfl

namespace MemberSemicolon

/-- What the check reads of a sibling: its kind and the kind of its last child. -/
def sight (place : Place) : Kind × Option Kind :=
  (place.kind, place.last.map Place.kind)

/-- Whether a semicolon terminates nothing, from the enclosing kinds and what is read of the sibling
before it. -/
def redundantAfter (enclosing : List Kind) : Option (Kind × Option Kind) → Bool
  | none => !reachesEnum enclosing
  | some (kind, last) =>
    if kind = .semi then true
    else if kind = .lcurly then !reachesEnum enclosing
    else if kind.isSelfClosing then true
    else if kind.isTerminated then last == some .semi
    else if kind.isTypeDefinition then enclosing.any Kind.isTypeDefinition
    else false

/-- Siblings lie in the same nodes. -/
theorem enclosingKinds_of_previous (place sibling : Place)
    (before : place.previous = some sibling) :
    sibling.enclosingKinds = place.enclosingKinds := by
  obtain ⟨enclosing, up, siblingUp⟩ := Cursor.parent_of_previous place sibling before
  rw [Place.enclosingKinds_of_parent place enclosing up,
    Place.enclosingKinds_of_parent sibling enclosing siblingUp]

theorem isRedundant_eq (place : Place) :
    isRedundant place = redundantAfter place.enclosingKinds (place.previous.map sight) := by
  unfold isRedundant
  cases before : place.previous with
  | none => rfl
  | some sibling =>
    have ends : endsInSemicolon sibling = (sibling.last.map Place.kind == some .semi) := by
      unfold endsInSemicolon
      cases sibling.last <;> rfl
    have outermost :
        (!Place.isOutermost sibling) = place.enclosingKinds.any Kind.isTypeDefinition := by
      rw [Place.isOutermost, enclosingKinds_of_previous place sibling before, Bool.not_not]
    simp only [ends, outermost]
    rfl

/-- Exactly the semicolons directly in a type body that terminate nothing are reported. -/
theorem reports_iff (place : Place) :
    reports place = true ↔
      place.kind = .semi ∧ place.enclosingKinds.head? = some .objBlock ∧
        redundantAfter place.enclosingKinds (place.previous.map sight) = true := by
  rw [reports, isRedundant_eq, Bool.and_eq_true, Bool.and_eq_true, inTypeBody, beq_iff_eq,
    beq_iff_eq, and_assoc]

/-- The whole verdict: a semicolon directly in a type body that terminates nothing is one issue at
its place, and nothing else is an issue. -/
theorem visit_eq (place : Place) :
    visit place =
      if place.kind = .semi ∧ place.enclosingKinds.head? = some .objBlock ∧
          redundantAfter place.enclosingKinds (place.previous.map sight) = true then
        [.atNode issueKind place.label message]
      else [] := by
  unfold visit
  by_cases holds : reports place = true
  · rw [if_pos holds, if_pos ((reports_iff place).mp holds)]
  · rw [if_neg holds, if_neg (fun all => holds ((reports_iff place).mpr all))]

end MemberSemicolon

end StraySemicolon

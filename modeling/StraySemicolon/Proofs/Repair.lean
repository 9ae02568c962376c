import StraySemicolon.Proofs.Pruning
import StraySemicolon.Proofs.TypeBody

/-!
# Repair in one pass

Whoever deletes all reported semicolons of a tree is done: no second pass finds anything. That is
not clear at once, since a deletion changes what stands before the semicolons that stay, and a
semicolon could become redundant by it. It cannot, because a semicolon in a body is always redundant
after another semicolon. So a semicolon that stays never follows one that goes, and it keeps the
sibling that its verdict depends on. What is read of that sibling stays as well: its last child
could only go from a body, and of a body the last child is not read.
-/

namespace StraySemicolon.MemberSemicolon

/-- The tree without the reported nodes, each deleted with everything below it. -/
def repaired (tree : SyntaxTree) : SyntaxTree :=
  Cursor.pruned reports (Cursor.top tree)

theorem visit_eq_nil_iff (place : Place) : visit place = [] ↔ reports place = false := by
  unfold visit
  cases reports place <;> simp

/-- A semicolon that stays does not follow one that goes. -/
theorem kept_before (place sibling : Place) (isSemicolon : place.kind = .semi)
    (kept : reports place = false) (before : place.previous = some sibling) :
    reports sibling = false := by
  rw [Bool.eq_false_iff] at kept ⊢
  intro gone
  obtain ⟨siblingKind, inBody, -⟩ := (reports_iff sibling).mp gone
  rw [enclosingKinds_of_previous place sibling before] at inBody
  have redundant : redundantAfter place.enclosingKinds (place.previous.map sight) = true := by
    rw [before, Option.map_some, sight, siblingKind]
    rfl
  exact kept ((reports_iff place).mpr ⟨isSemicolon, inBody, redundant⟩)

/-- Only bodies have children that go. -/
theorem kept_of_mem_children (place : Place) (noBody : place.kind ≠ .objBlock) :
    ∀ child ∈ place.children, reports child = false := by
  intro child below
  rw [Bool.eq_false_iff]
  intro gone
  obtain ⟨-, inBody, -⟩ := (reports_iff child).mp gone
  rw [Place.enclosingKinds_of_parent child place ((Cursor.mem_children_iff child place).mp below)]
    at inBody
  exact noBody (Option.some.inj inBody)

@[simp]
theorem kind_inPruned (dropped : Place → Bool) (place : Place) :
    Place.kind (place.inPruned dropped) = place.kind :=
  congrArg SyntaxNode.kind (Cursor.label_inPruned dropped place)

@[simp]
theorem enclosingKinds_inPruned (dropped : Place → Bool) (place : Place) :
    Place.enclosingKinds (place.inPruned dropped) = place.enclosingKinds :=
  congrArg (List.map SyntaxNode.kind) (Cursor.enclosing_inPruned dropped place)

/-- A node that keeps its children keeps what is read of it. -/
theorem sight_inPruned (dropped : Place → Bool) (place : Place)
    (kept : ∀ child ∈ place.children, dropped child = false) :
    sight (place.inPruned dropped) = sight place := by
  have allStay : place.children.filter (fun child => !dropped child) = place.children := by
    rw [List.filter_eq_self]
    intro child below
    simp [kept child below]
  rw [sight, sight, kind_inPruned, Cursor.last_inPruned, allStay, Cursor.getLast?_children,
    Option.map_map]
  congr 2
  exact funext fun child => kind_inPruned dropped child

/-- If only children of bodies are dropped, nothing changes about what there is to terminate after a
sibling that stays. -/
theorem redundantAfter_inPruned (dropped : Place → Bool)
    (kept : ∀ place : Place, place.kind ≠ .objBlock →
      ∀ child ∈ place.children, dropped child = false)
    (enclosing : List Kind) (before : Option Place) :
    redundantAfter enclosing ((before.map (Cursor.inPruned dropped)).map sight) =
      redundantAfter enclosing (before.map sight) := by
  cases before with
  | none => rfl
  | some sibling =>
    rw [Option.map_some, Option.map_some, Option.map_some]
    by_cases body : sibling.kind = .objBlock
    -- The last child of a body may have gone, but a last child is read of declarations only.
    · have bodyStill := (kind_inPruned dropped sibling).trans body
      simp [redundantAfter, sight, body, bodyStill, Kind.isSelfClosing, Kind.isTerminated,
        Kind.isTypeDefinition]
    · rw [sight_inPruned dropped sibling (kept sibling body)]

/-- A semicolon that stays keeps the sibling before it. -/
theorem previous_inPruned_of_kept (place : Place) (isSemicolon : place.kind = .semi)
    (kept : reports place = false) :
    (place.inPruned reports).previous = place.previous.map (Cursor.inPruned reports) :=
  Cursor.previous_inPruned reports place kept
    fun sibling before => kept_before place sibling isSemicolon kept before

/-- What was not reported is not reported after the repair. -/
theorem kept_inPruned (place : Place) (kept : reports place = false) :
    reports (place.inPruned reports) = false := by
  rw [Bool.eq_false_iff]
  intro gone
  obtain ⟨isSemicolon, inBody, redundant⟩ := (reports_iff _).mp gone
  rw [kind_inPruned] at isSemicolon
  rw [enclosingKinds_inPruned] at inBody redundant
  rw [previous_inPruned_of_kept place isSemicolon kept,
    redundantAfter_inPruned reports kept_of_mem_children] at redundant
  exact Bool.eq_false_iff.mp kept
    ((reports_iff place).mpr ⟨isSemicolon, inBody, redundant⟩)

/-- The root of a tree always stays. -/
theorem stays_top (tree : SyntaxTree) : Cursor.stays reports (Cursor.top tree) = true := by
  have kept : reports (Cursor.top tree) = false := by
    rw [Bool.eq_false_iff]
    intro gone
    obtain ⟨-, inBody, -⟩ := (reports_iff _).mp gone
    cases inBody
  rw [Cursor.stays, Cursor.ancestors_of_root _ rfl, List.all_cons, kept]
  rfl

/-- One pass repairs a tree. The nodes of the repaired tree are, in order, the nodes of the old one
that are not reported and lie in nothing that is. None of them is reported now. Each semicolon among
them was not reported before either, and it has the sibling before it that it had, if it had one. -/
theorem repaired_in_one_pass (tree : SyntaxTree) :
    (Cursor.top (repaired tree)).walk =
        ((Cursor.top tree).walk.filter (Cursor.stays reports)).map (Cursor.inPruned reports) ∧
      (∀ place ∈ (Cursor.top (repaired tree)).walk, visit place = []) ∧
      ∀ place ∈ (Cursor.top tree).walk, Cursor.stays reports place = true →
        Place.kind place = .semi →
          visit place = [] ∧
          (place.inPruned reports).label = place.label ∧
          (place.inPruned reports).previous = place.previous.map (Cursor.inPruned reports) ∧
          ∀ sibling, place.previous = some sibling → Cursor.stays reports sibling = true := by
  have nodes : (Cursor.top (repaired tree)).walk =
      ((Cursor.top tree).walk.filter (Cursor.stays reports)).map (Cursor.inPruned reports) :=
    Cursor.walk_inPruned reports (Cursor.top tree) (stays_top tree)
  refine ⟨nodes, ?_, ?_⟩
  · intro place listed
    rw [nodes] at listed
    obtain ⟨old, member, rfl⟩ := List.mem_map.mp listed
    have kept := Cursor.kept_of_stays reports old (List.mem_filter.mp member).2
    exact (visit_eq_nil_iff _).mpr (kept_inPruned old kept)
  · intro place listed staying isSemicolon
    have kept := Cursor.kept_of_stays reports place staying
    refine ⟨(visit_eq_nil_iff place).mpr kept, Cursor.label_inPruned reports place,
      previous_inPruned_of_kept place isSemicolon kept, ?_⟩
    intro sibling before
    exact Cursor.stays_of_previous reports place sibling before staying
      (kept_before place sibling isSemicolon kept before)

/-- In the sample, the semicolon that ends the constants stays and is left alone, before and after
the repair, and the constant still stands before it. -/
theorem repaired_sample_in_one_pass :
    let terminator : Place := (Cursor.top sample).follow [.first, .first, .next, .next]
    terminator ∈ (Cursor.top sample).walk ∧ Cursor.stays reports terminator = true ∧
    Place.kind terminator = .semi ∧ visit terminator = [] ∧
    terminator.inPruned reports ∈ (Cursor.top (repaired sample)).walk ∧
    visit (terminator.inPruned reports) = [] ∧
    ((terminator.inPruned reports).previous.map Place.kind) = some .enumConstantDef := by
  intro terminator
  obtain ⟨nodes, clean, survivors⟩ := repaired_in_one_pass sample
  have listed : terminator ∈ (Cursor.top sample).walk := Cursor.mem_walk_top terminator
  have staying : Cursor.stays reports terminator = true := by decide
  have isSemicolon : Place.kind terminator = .semi := rfl
  obtain ⟨silent, -, previous, -⟩ := survivors terminator listed staying isSemicolon
  have moved : terminator.inPruned reports ∈ (Cursor.top (repaired sample)).walk := by
    rw [nodes]
    exact List.mem_map_of_mem (List.mem_filter.mpr ⟨listed, staying⟩)
  refine ⟨listed, staying, isSemicolon, silent, moved, clean _ moved, ?_⟩
  rw [previous]
  decide

/-- Of the sample, `enum { C { ; } ; class { field; } }` is left. -/
example :
    let node (kind : Kind) (children : List SyntaxTree) :=
      Tree.node ⟨kind, kind.name, 1, 1⟩ children
    let leaf (kind : Kind) := node kind []
    repaired sample = node .enumDef [node .objBlock [leaf .lcurly,
      node .enumConstantDef [node .objBlock [leaf .lcurly, leaf .semi, leaf .rcurly]],
      leaf .semi,
      node .classDef [node .objBlock [leaf .lcurly, node .fieldDef [leaf .semi], leaf .rcurly]],
      leaf .rcurly]] := by
  decide

end StraySemicolon.MemberSemicolon

import StraySemicolon.Proofs.Context
import StraySemicolon.Proofs.Verdict

/-!
# Verdicts inside a type declaration

Both searches of the check go up from a semicolon, and both could go as far as the root. Neither
sees anything beyond the nearest type declaration: there the search for an enum ends, with or
without one, and the search for a type has found one. So a verdict is fixed by the semicolon itself,
by what is read of the sibling before it, and by the kinds up to the nearest declaration. It does
not matter where in a file, and in what file, the declaration stands.
-/

namespace StraySemicolon

/-- The kinds up to and including the first type declaration, all of them if there is none. -/
def upToType : List Kind → List Kind
  | [] => []
  | kind :: outer => if kind.isTypeDefinition then [kind] else kind :: upToType outer

/-- The kinds around a node up to and including that of the nearest type declaration. -/
def Place.scope (place : Place) : List Kind :=
  upToType place.enclosingKinds

/-- What lies around a type declaration is out of sight. -/
theorem upToType_append (inner outer : List Kind)
    (enclosed : inner.any Kind.isTypeDefinition = true) :
    upToType (inner ++ outer) = upToType inner := by
  induction inner with
  | nil => simp at enclosed
  | cons kind rest inductionHypothesis =>
    by_cases declares : kind.isTypeDefinition = true
    · simp [upToType, declares]
    · simp only [List.any_cons, declares, Bool.false_or] at enclosed
      simp [upToType, declares, inductionHypothesis enclosed]

theorem head?_upToType (kinds : List Kind) : (upToType kinds).head? = kinds.head? := by
  cases kinds with
  | nil => rfl
  | cons kind outer =>
    rw [upToType]
    split <;> rfl

/-- The search for an enclosing enum ends at the nearest type declaration, if not before. -/
theorem reachesEnum_upToType (kinds : List Kind) :
    reachesEnum (upToType kinds) = reachesEnum kinds := by
  induction kinds with
  | nil => rfl
  | cons kind outer inductionHypothesis =>
    cases kind <;> simp [upToType, Kind.isTypeDefinition, reachesEnum, Kind.isEnumBarrier,
      inductionHypothesis]

/-- The search for an enclosing type declaration ends at the nearest one. -/
theorem any_isTypeDefinition_upToType (kinds : List Kind) :
    (upToType kinds).any Kind.isTypeDefinition = kinds.any Kind.isTypeDefinition := by
  induction kinds with
  | nil => rfl
  | cons kind outer inductionHypothesis =>
    by_cases declares : kind.isTypeDefinition = true
    · simp [upToType, declares]
    · simp [upToType, declares, inductionHypothesis]

namespace MemberSemicolon

theorem redundantAfter_upToType (enclosing : List Kind) (before : Option (Kind × Option Kind)) :
    redundantAfter (upToType enclosing) before = redundantAfter enclosing before := by
  unfold redundantAfter
  simp only [reachesEnum_upToType, any_isTypeDefinition_upToType]

/-- Two nodes, possibly of different trees, that stand alike as far as the nearest type
declaration. -/
structure StandAlike (first second : Place) : Prop where
  kind_eq : first.kind = second.kind
  line_eq : first.label.line = second.label.line
  column_eq : first.label.column = second.label.column
  scope_eq : first.scope = second.scope
  /-- The siblings before them, and the last children of these, are of the same kinds. -/
  before_eq : first.previous.map sight = second.previous.map sight

/-- Nodes that stand alike get the same verdict. -/
theorem visit_eq_of_standAlike (first second : Place) (alike : StandAlike first second) :
    visit first = visit second := by
  obtain ⟨kind, line, column, scope, before⟩ := alike
  have lies : first.enclosingKinds.head? = second.enclosingKinds.head? := by
    rw [← head?_upToType, ← head?_upToType second.enclosingKinds]
    exact congrArg List.head? scope
  have redundant : redundantAfter first.enclosingKinds (first.previous.map sight) =
      redundantAfter second.enclosingKinds (second.previous.map sight) := by
    rw [← redundantAfter_upToType, ← redundantAfter_upToType second.enclosingKinds, before]
    exact congrArg (fun kinds => redundantAfter kinds _) scope
  have issue : Issue.atNode issueKind first.label message =
      Issue.atNode issueKind second.label message := by
    rw [Issue.atNode, Issue.atNode, line, column]
  rw [visit_eq, visit_eq, kind, lies, redundant, issue]

/-! ## Moving a declaration -/

theorem enclosingKinds_within (place : Place) (outer : List (Frame SyntaxNode)) :
    Place.enclosingKinds (place.within outer) =
      place.enclosingKinds ++ outer.map fun frame => frame.label.kind := by
  rw [Place.enclosingKinds, Cursor.enclosing_within, List.map_append, List.map_map]
  rfl

/-- What is read of a sibling does not depend on where its tree stands. -/
theorem sight_within (place : Place) (outer : List (Frame SyntaxNode)) :
    sight (place.within outer) = sight place := by
  rw [sight, Cursor.last_within, Option.map_map]
  rfl

theorem map_sight_previous_within (place : Place) (outer : List (Frame SyntaxNode))
    (inside : place.above ≠ []) :
    (place.within outer).previous.map sight = place.previous.map sight := by
  rw [Cursor.previous_within place outer inside, Option.map_map]
  exact congrArg (fun read => place.previous.map read)
    (funext fun sibling => sight_within sibling outer)

/-- Everything below the root of a declaration lies in a type declaration. -/
theorem enclosed_of_mem_tail_walk (declaration : SyntaxTree)
    (declares : declaration.label.kind.isTypeDefinition = true) :
    ∀ place ∈ (Cursor.top declaration).walk.tail,
      (Place.enclosingKinds place).any Kind.isTypeDefinition = true := by
  intro place member
  rw [Cursor.walk_eq, List.tail_cons] at member
  obtain ⟨child, below, member⟩ := List.mem_flatMap.mp member
  refine Cursor.walk_invariant
    (motive := fun place : Place => place.enclosingKinds.any Kind.isTypeDefinition = true) ?_ child
      ?_
    place member
  · intro outer enclosed inner further
    rw [Place.enclosingKinds_of_parent inner outer
      ((Cursor.mem_children_iff inner outer).mp further),
      List.any_cons, enclosed, Bool.or_true]
  · have isDeclaration : (Place.kind (Cursor.top declaration)).isTypeDefinition = true := declares
    rw [Place.enclosingKinds_of_parent child _ ((Cursor.mem_children_iff child _).mp below),
      List.any_cons, isDeclaration, Bool.true_or]

/-- A node of a declaration stands alike wherever the declaration stands. -/
theorem standAlike_within (place : Place) (outer other : List (Frame SyntaxNode))
    (enclosed : place.enclosingKinds.any Kind.isTypeDefinition = true) :
    StandAlike (place.within outer) (place.within other) where
  kind_eq := rfl
  line_eq := rfl
  column_eq := rfl
  scope_eq := by
    rw [Place.scope, Place.scope, enclosingKinds_within, enclosingKinds_within,
      upToType_append _ _ enclosed, upToType_append _ _ enclosed]
  before_eq := by
    have inside : place.above ≠ [] := by
      intro root
      simp [Place.enclosingKinds, Cursor.enclosing, root] at enclosed
    rw [map_sight_previous_within place outer inside, map_sight_previous_within place other inside]

/-- A verdict is fixed by the kind and the place in the source of a node, by the kinds around it up
to the nearest type declaration, and by the kinds of the sibling before it and of that sibling's
last child. So a declaration can be moved into any other surroundings, and the check says the same
of each node inside it, from the first to the last. -/
theorem visit_fixed_by_scope_and_moved :
    (∀ first second : Place, StandAlike first second → visit first = visit second) ∧
      ∀ (declaration : SyntaxTree) (outer other : List (Frame SyntaxNode)),
        declaration.label.kind.isTypeDefinition = true →
          (⟨declaration, outer⟩ : Place).walk.tail.map visit =
            (⟨declaration, other⟩ : Place).walk.tail.map visit := by
  refine ⟨visit_eq_of_standAlike, ?_⟩
  intro declaration outer other declares
  have moved (frames : List (Frame SyntaxNode)) : (⟨declaration, frames⟩ : Place).walk.tail =
      (Cursor.top declaration).walk.tail.map fun place => place.within frames := by
    rw [List.map_tail, ← Cursor.walk_within]
    rfl
  rw [moved outer, moved other, List.map_map, List.map_map]
  apply List.map_congr_left
  intro place member
  exact visit_eq_of_standAlike _ _
    (standAlike_within place outer other
      (enclosed_of_mem_tail_walk declaration declares place member))

/-- The syntax tree of `class { ; }`, with all nodes in one place. -/
def emptyClass : SyntaxTree :=
  let node (kind : Kind) (children : List SyntaxTree) :=
    Tree.node ⟨kind, kind.name, 1, 1⟩ children
  node .classDef [node .objBlock [node .lcurly [], node .semi [], node .rcurly []]]

/-- The frames around the last member of an enum whose list of constants is empty. -/
def enumFrames : List (Frame SyntaxNode) :=
  let leaf (kind : Kind) : SyntaxTree := .node ⟨kind, kind.name, 1, 1⟩ []
  [⟨⟨.objBlock, Kind.objBlock.name, 1, 1⟩, [leaf .semi, leaf .lcurly], [leaf .rcurly]⟩,
    ⟨⟨.enumDef, Kind.enumDef.name, 1, 1⟩, [], []⟩]

/-- The semicolon of the class stands alike in a file of its own and in the enum, and it is reported
in both, although a leading semicolon of the enum itself would not be. -/
theorem visit_of_class_moved_into_enum :
    visit ((⟨emptyClass, []⟩ : Place).follow [.first, .first, .next]) =
      visit ((⟨emptyClass, enumFrames⟩ : Place).follow [.first, .first, .next]) ∧
    emptyClass.label.kind.isTypeDefinition = true ∧
    (⟨emptyClass, enumFrames⟩ : Place).walk.tail.map visit =
      [[], [], [⟨issueKind, 1, 1, message⟩], []] := by
  have declares : emptyClass.label.kind.isTypeDefinition = true := rfl
  refine ⟨visit_fixed_by_scope_and_moved.1 _ _ ⟨rfl, rfl, rfl, rfl, rfl⟩, declares, ?_⟩
  rw [visit_fixed_by_scope_and_moved.2 emptyClass enumFrames [] declares, Cursor.walk_eq,
    List.tail_cons]
  cbv

end MemberSemicolon

end StraySemicolon

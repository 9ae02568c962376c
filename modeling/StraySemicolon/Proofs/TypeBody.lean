import StraySemicolon.Proofs.Verdict

/-!
# Semicolons in grammar-shaped type bodies

The grammar of Java knows three shapes of type bodies: braces around members, the body of an enum
with its list of constants in front of the members, and the body of a constant. In each of them the
law is about the whole list: every semicolon of its own is reported, except the one that ends the
constants of an enum and the one that opens the body of a constant. It holds for lists of any length
and whatever is nested inside the members, because a semicolon follows a member, a constant or the
opening brace.
-/

namespace StraySemicolon.MemberSemicolon

/-! ## Shapes -/

/-- The kinds of the members that need no semicolon after them, semicolons among them. -/
def closedKinds : List Kind :=
  [.semi, .staticInit, .instanceInit, .ctorDef, .compactCtorDef, .methodDef,
    .classDef, .interfaceDef, .enumDef, .annotationDef, .recordDef]

/-- A member of a type body: of a closed kind, or a field or an annotation element that ends in its
own semicolon. -/
def IsMember (tree : SyntaxTree) : Prop :=
  tree.label.kind ∈ closedKinds ∨
    tree.label.kind ∈ [Kind.fieldDef, .annotationFieldDef] ∧
      ∃ last, tree.children.getLast? = some last ∧ last.label.kind = .semi

/-- Braces around a list of trees. -/
def Braced (children inner : List SyntaxTree) : Prop :=
  ∃ opening closing, children = opening :: (inner ++ [closing]) ∧
    opening.label.kind = .lcurly ∧ closing.label.kind = .rcurly

/-- Braces around members. -/
def MemberBody (children : List SyntaxTree) : Prop :=
  ∃ members, Braced children members ∧ ∀ member ∈ members, IsMember member

/-- Braces around constants and commas, which a semicolon and members may follow. -/
def EnumBody (children : List SyntaxTree) : Prop :=
  ∃ constants rest, Braced children (constants ++ rest) ∧
    (∀ constant ∈ constants, constant.label.kind ∈ [Kind.enumConstantDef, .comma]) ∧
    (rest = [] ∨ ∃ terminator members, rest = terminator :: members ∧
      terminator.label.kind = .semi ∧ ∀ member ∈ members, IsMember member)

/-- The body of a type or of a `new` expression, of the given owner. -/
structure IsBody (body owner : Place) : Prop where
  kind_eq : body.kind = .objBlock
  parent_eq : body.parent = some owner

/-- The check reports a place, with one issue at the place itself. -/
def Reported (place : Place) : Prop :=
  visit place = [.atNode issueKind place.label message]

/-- The check does not report a place. -/
def Unreported (place : Place) : Prop :=
  visit place = []

/-! ## The sibling before a semicolon -/

/-- In a body, a semicolon is reported exactly if it terminates nothing. -/
theorem visit_in_body (body owner child : Place) (before after : List Place)
    (isBody : IsBody body owner) (split : body.children = before ++ child :: after)
    (isSemicolon : child.kind = .semi) :
    visit child =
      if redundantAfter (.objBlock :: owner.kind :: owner.enclosingKinds)
          (before.getLast?.map sight) = true then
        [.atNode issueKind child.label message]
      else [] := by
  obtain ⟨up, previous⟩ := Cursor.previous_of_split body child before after split
  have lies : child.enclosingKinds = .objBlock :: owner.kind :: owner.enclosingKinds := by
    rw [Place.enclosingKinds_of_parent child body up, isBody.kind_eq,
      Place.enclosingKinds_of_parent body owner isBody.parent_eq]
  simp [visit_eq, isSemicolon, lies, previous]

/-- Inside braces, a semicolon is one of the inner trees, and the opening brace stands before the
inner trees before it. -/
theorem split_of_braced (children inner : List SyntaxTree) (braced : Braced children inner)
    (before after : List SyntaxTree) (tree : SyntaxTree)
    (split : children = before ++ tree :: after) (isSemicolon : tree.label.kind = .semi) :
    ∃ opening earlier later, before = opening :: earlier ∧ opening.label.kind = .lcurly ∧
      inner = earlier ++ tree :: later := by
  obtain ⟨opening, closing, rfl, opens, closes⟩ := braced
  cases before with
  | nil =>
    obtain ⟨rfl, -⟩ := List.cons.inj split
    rw [opens] at isSemicolon
    cases isSemicolon
  | cons first earlier =>
    obtain ⟨rfl, inside⟩ := List.cons.inj split
    rcases List.eq_nil_or_concat after with rfl | ⟨later, last, rfl⟩
    · obtain ⟨-, same⟩ := List.append_inj' inside rfl
      obtain ⟨rfl, -⟩ := List.cons.inj same
      rw [closes] at isSemicolon
      cases isSemicolon
    · have inside : inner ++ [closing] = (earlier ++ tree :: later) ++ [last] := by
        simpa using inside
      obtain ⟨whole, -⟩ := List.append_inj' inside rfl
      exact ⟨opening, earlier, later, rfl, opens, whole⟩

/-- After a member nothing is left to terminate, provided that some type encloses the member. -/
theorem redundantAfter_member (enclosing : List Kind) (previous : Place)
    (member : IsMember previous.focus) (enclosed : enclosing.any Kind.isTypeDefinition = true) :
    redundantAfter enclosing (some (sight previous)) = true := by
  rcases member with closed | ⟨terminated, last, ends, isSemicolon⟩
  · change previous.kind ∈ closedKinds at closed
    simp only [closedKinds, List.mem_cons, List.not_mem_nil, or_false] at closed
    rcases closed
      with kind | kind | kind | kind | kind | kind | kind | kind | kind | kind | kind <;>
      simp [redundantAfter, sight, kind, Kind.isSelfClosing, Kind.isTerminated,
        Kind.isTypeDefinition, enclosed]
  · change previous.kind ∈ _ at terminated
    have lastKind : previous.last.map Place.kind = some .semi := by
      rw [← Cursor.getLast?_children, ← List.getLast?_map]
      rw [← Cursor.map_focus_children, List.getLast?_map] at ends
      obtain ⟨child, found, rfl⟩ := Option.map_eq_some_iff.mp ends
      rw [List.getLast?_map, found]
      exact congrArg some isSemicolon
    simp only [List.mem_cons, List.not_mem_nil, or_false] at terminated
    rcases terminated with kind | kind <;>
      simp [redundantAfter, sight, kind, Kind.isSelfClosing, Kind.isTerminated, lastKind]

/-- After a constant or a comma the semicolon ends the list of constants. -/
theorem redundantAfter_constant (enclosing : List Kind) (previous : Place)
    (constant : previous.kind ∈ [Kind.enumConstantDef, .comma]) :
    redundantAfter enclosing (some (sight previous)) = false := by
  simp only [List.mem_cons, List.not_mem_nil, or_false] at constant
  rcases constant with kind | kind <;>
    simp [redundantAfter, sight, kind, Kind.isSelfClosing, Kind.isTerminated, Kind.isTypeDefinition]

/-- After the opening brace only the scope decides. -/
theorem redundantAfter_brace (enclosing : List Kind) (previous : Place)
    (opens : previous.kind = .lcurly) :
    redundantAfter enclosing (some (sight previous)) = !reachesEnum enclosing := by
  simp [redundantAfter, sight, opens]

/-! ## The three bodies -/

/-- The last of some places, from the last of their trees. -/
theorem getLast?_of_map_focus (places : List Place) (front : List SyntaxTree) (last : SyntaxTree)
    (trees : places.map Cursor.focus = front ++ [last]) :
    ∃ place, places.getLast? = some place ∧ place.focus = last := by
  have ends := congrArg List.getLast? trees
  rw [List.getLast?_map, List.getLast?_concat] at ends
  obtain ⟨place, found, same⟩ := Option.map_eq_some_iff.mp ends
  exact ⟨place, found, same⟩

/-- Among members, a semicolon follows the opening brace, as the second child, or another member. -/
theorem before_in_member_body (body child : Place) (before after : List Place)
    (shape : MemberBody body.focus.children) (split : body.children = before ++ child :: after)
    (isSemicolon : child.kind = .semi) :
    ∃ previous, before.getLast? = some previous ∧
      (before.length = 1 ∧ previous.kind = .lcurly ∨
        before.length ≠ 1 ∧ IsMember previous.focus) := by
  obtain ⟨members, braced, closed⟩ := shape
  obtain ⟨opening, earlier, later, trees, opens, whole⟩ :=
    split_of_braced _ members braced _ _ _
      (Cursor.focus_children_of_split body child before after split) isSemicolon
  have count : before.length = earlier.length + 1 := by
    simpa using congrArg List.length trees
  rcases List.eq_nil_or_concat earlier with rfl | ⟨front, last, rfl⟩
  · obtain ⟨previous, found, rfl⟩ := getLast?_of_map_focus before [] opening trees
    exact ⟨previous, found, Or.inl ⟨count, opens⟩⟩
  · obtain ⟨previous, found, rfl⟩ := getLast?_of_map_focus before (opening :: front) last (by
      simpa using trees)
    refine ⟨previous, found, Or.inr ⟨by simp [count], closed previous.focus ?_⟩⟩
    simp [whole]

/-- A tree that is no constant is the terminator or stands among the members after it. -/
theorem terminator_or_later (constants members earlier later : List SyntaxTree)
    (terminator tree : SyntaxTree) (notConstant : tree ∉ constants)
    (whole : constants ++ terminator :: members = earlier ++ tree :: later) :
    earlier = constants ∨
      ∃ front, earlier = constants ++ terminator :: front ∧
        members = front ++ tree :: later := by
  rcases List.append_eq_append_iff.mp whole with ⟨middle, rfl, tail⟩ | ⟨middle, rfl, tail⟩
  · cases middle with
    | nil => exact Or.inl (List.append_nil constants)
    | cons first front =>
      obtain ⟨rfl, same⟩ := List.cons.inj tail
      exact Or.inr ⟨front, rfl, same⟩
  · cases middle with
    | nil => exact Or.inl (List.append_nil earlier).symm
    | cons first front =>
      obtain ⟨rfl, -⟩ := List.cons.inj tail
      exact absurd (List.mem_append_right earlier List.mem_cons_self) notConstant

/-- Up to the end of the constants there is no semicolon. -/
theorem kind_ne_semi_of_constants (before : List Place) (opening : SyntaxTree)
    (constants : List SyntaxTree) (opens : opening.label.kind = .lcurly)
    (isConstant : ∀ constant ∈ constants,
      constant.label.kind ∈ [Kind.enumConstantDef, .comma])
    (trees : before.map Cursor.focus = opening :: constants) :
    ∀ place ∈ before, Place.kind place ≠ .semi := by
  intro place member kind
  change place.focus.label.kind = .semi at kind
  have listed := List.mem_map_of_mem (f := Cursor.focus) member
  rw [trees, List.mem_cons] at listed
  rcases listed with isOpening | constant
  · rw [isOpening, opens] at kind
    cases kind
  · have other := isConstant place.focus constant
    simp [kind] at other

/-- What ends in a terminator and members after it ends in a member, for the terminator is one. -/
theorem getLast?_after_terminator (before : List Place) (front members : List SyntaxTree)
    (terminator : SyntaxTree) (terminates : terminator.label.kind = .semi)
    (closed : ∀ member ∈ members, IsMember member)
    (trees : before.map Cursor.focus = front ++ terminator :: members) :
    ∃ previous, before.getLast? = some previous ∧ IsMember previous.focus := by
  rcases List.eq_nil_or_concat members with rfl | ⟨init, last, rfl⟩
  · obtain ⟨previous, found, rfl⟩ := getLast?_of_map_focus before front terminator trees
    exact ⟨previous, found, Or.inl (by simp [terminates, closedKinds])⟩
  · obtain ⟨previous, found, rfl⟩ :=
      getLast?_of_map_focus before (front ++ terminator :: init) last (by simpa using trees)
    exact ⟨previous, found, closed previous.focus (by simp)⟩

/-- In an enum, a semicolon ends the constants if no semicolon stands before it, and it follows a
member otherwise. -/
theorem before_in_enum_body (body child : Place) (before after : List Place)
    (shape : EnumBody body.focus.children) (split : body.children = before ++ child :: after)
    (isSemicolon : child.kind = .semi) :
    ∃ previous, before.getLast? = some previous ∧
      ((∀ earlier ∈ before, Place.kind earlier ≠ .semi) ∧
          (previous.kind = .lcurly ∨ previous.kind ∈ [Kind.enumConstantDef, .comma]) ∨
        (∃ earlier ∈ before, Place.kind earlier = .semi) ∧ IsMember previous.focus) := by
  obtain ⟨constants, rest, braced, isConstant, ending⟩ := shape
  obtain ⟨opening, earlier, later, trees, opens, whole⟩ := split_of_braced _ _ braced _ _ _
    (Cursor.focus_children_of_split body child before after split) isSemicolon
  have notConstant : child.focus ∉ constants := by
    intro member
    have kind := isConstant child.focus member
    change child.kind ∈ _ at kind
    simp [isSemicolon] at kind
  rcases ending with rfl | ⟨terminator, members, rfl, terminates, closed⟩
  · rw [List.append_nil] at whole
    exact absurd (whole ▸ List.mem_append_right earlier List.mem_cons_self) notConstant
  · rcases terminator_or_later constants members earlier later terminator child.focus notConstant
      whole with rfl | ⟨front, rfl, inside⟩
    · have none := kind_ne_semi_of_constants before opening earlier opens isConstant trees
      rcases List.eq_nil_or_concat earlier with rfl | ⟨front, last, rfl⟩
      · obtain ⟨previous, found, rfl⟩ := getLast?_of_map_focus before [] opening trees
        exact ⟨previous, found, Or.inl ⟨none, Or.inl opens⟩⟩
      · obtain ⟨previous, found, rfl⟩ :=
          getLast?_of_map_focus before (opening :: front) last (by simpa using trees)
        exact ⟨previous, found, Or.inl ⟨none, Or.inr (isConstant previous.focus (by simp))⟩⟩
    · have some : ∃ place ∈ before, Place.kind place = .semi := by
        have listed : terminator ∈ before.map Cursor.focus := by simp [trees]
        obtain ⟨place, member, rfl⟩ := List.mem_map.mp listed
        exact ⟨place, member, terminates⟩
      obtain ⟨previous, found, member⟩ :=
        getLast?_after_terminator before (opening :: constants) front terminator terminates
          (fun member listed => closed member (by simp [inside, listed])) (by simpa using trees)
      exact ⟨previous, found, Or.inr ⟨some, member⟩⟩

/-! ## Scopes of the three bodies -/

/-- An enum is a type, so what reaches an enum lies in a type. -/
theorem any_isTypeDefinition_of_reachesEnum (kinds : List Kind)
    (reaches : reachesEnum kinds = true) :
    kinds.any Kind.isTypeDefinition = true := by
  induction kinds with
  | nil => simp [reachesEnum] at reaches
  | cons kind outer inductionHypothesis =>
    cases kind <;> simp_all [reachesEnum, Kind.isEnumBarrier, Kind.isTypeDefinition]

/-- Owners of bodies with members only: a type that is no enum, or a `new` expression in a type. -/
def OwnsMembers (owner : Place) : Prop :=
  owner.kind ∈ [Kind.classDef, .interfaceDef, .annotationDef, .recordDef] ∨
    owner.kind = .literalNew ∧
      ∃ outer ∈ owner.ancestors, (Place.kind outer).isTypeDefinition = true

theorem scope_of_ownsMembers (owner : Place) (owns : OwnsMembers owner) :
    reachesEnum (.objBlock :: owner.kind :: owner.enclosingKinds) = false ∧
      (Kind.objBlock :: owner.kind :: owner.enclosingKinds).any Kind.isTypeDefinition = true := by
  rcases owns with named | ⟨anonymous, outer, isOuter, isType⟩
  · simp only [List.mem_cons, List.not_mem_nil, or_false] at named
    rcases named with kind | kind | kind | kind <;>
      simp [kind, reachesEnum, Kind.isEnumBarrier, Kind.isTypeDefinition]
  · have outside : owner.enclosingKinds.any Kind.isTypeDefinition = true := by
      rw [← Place.map_kind_ancestors, List.any_map]
      exact List.any_eq_true.mpr ⟨outer, isOuter, isType⟩
    simp [anonymous, reachesEnum, Kind.isEnumBarrier, outside]

/-! ## The law -/

/-- Where no enum is reached, every semicolon between members is reported. -/
theorem reported_in_member_body (body owner child : Place) (before after : List Place)
    (isBody : IsBody body owner) (owns : OwnsMembers owner) (shape : MemberBody body.focus.children)
    (split : body.children = before ++ child :: after) (isSemicolon : child.kind = .semi) :
    Reported child := by
  obtain ⟨outsideEnum, inType⟩ := scope_of_ownsMembers owner owns
  have verdict := visit_in_body body owner child before after isBody split isSemicolon
  obtain ⟨previous, found, ⟨-, opens⟩ | ⟨-, member⟩⟩ :=
    before_in_member_body body child before after shape split isSemicolon
  · rwa [found, Option.map_some, redundantAfter_brace _ previous opens, outsideEnum] at verdict
  · rwa [found, Option.map_some, redundantAfter_member _ previous member inType] at verdict

/-- In the body of an enum, the first semicolon is not reported and all others are. -/
theorem visit_in_enum_body (body owner child : Place) (before after : List Place)
    (isBody : IsBody body owner) (isEnum : owner.kind = .enumDef)
    (shape : EnumBody body.focus.children) (split : body.children = before ++ child :: after)
    (isSemicolon : child.kind = .semi) :
    if ∃ earlier ∈ before, Place.kind earlier = .semi then Reported child
      else Unreported child := by
  have inEnum : reachesEnum (.objBlock :: owner.kind :: owner.enclosingKinds) = true := by
    simp [isEnum, reachesEnum, Kind.isEnumBarrier]
  have inType := any_isTypeDefinition_of_reachesEnum _ inEnum
  have verdict := visit_in_body body owner child before after isBody split isSemicolon
  obtain ⟨previous, found, ⟨none, first⟩ | ⟨some, member⟩⟩ :=
    before_in_enum_body body child before after shape split isSemicolon
  · rw [if_neg (by simpa using none)]
    rw [found, Option.map_some] at verdict
    rcases first with opens | constant
    · rwa [redundantAfter_brace _ previous opens, inEnum] at verdict
    · rwa [redundantAfter_constant _ previous constant] at verdict
  · rw [if_pos some]
    rwa [found, Option.map_some, redundantAfter_member _ previous member inType] at verdict

/-- In the body of a constant, a semicolon directly after the opening brace is not reported and all
others are. -/
theorem visit_in_constant_body (body owner child : Place) (before after : List Place)
    (isBody : IsBody body owner) (isConstant : owner.kind = .enumConstantDef)
    (inBlock : owner.inEnumBlock = true) (shape : MemberBody body.focus.children)
    (split : body.children = before ++ child :: after) (isSemicolon : child.kind = .semi) :
    if before.length = 1 then Unreported child else Reported child := by
  have inEnum : reachesEnum (.objBlock :: owner.kind :: owner.enclosingKinds) = true := by
    rw [isConstant]
    exact inBlock
  have inType := any_isTypeDefinition_of_reachesEnum _ inEnum
  have verdict := visit_in_body body owner child before after isBody split isSemicolon
  obtain ⟨previous, found, ⟨first, opens⟩ | ⟨later, member⟩⟩ :=
    before_in_member_body body child before after shape split isSemicolon
  · rw [if_pos first]
    rwa [found, Option.map_some, redundantAfter_brace _ previous opens, inEnum] at verdict
  · rw [if_neg later]
    rwa [found, Option.map_some, redundantAfter_member _ previous member inType] at verdict

/-- Whatever is reported is a semicolon directly in a body. -/
theorem in_body_of_reported (place : Place) (reported : ¬ Unreported place) :
    place.kind = .semi ∧
      ∃ body : Place, place.parent = some body ∧ body.kind = .objBlock := by
  rw [Unreported, visit_eq] at reported
  obtain ⟨isSemicolon, lies, -⟩ := of_not_not fun fails => reported (if_neg fails)
  refine ⟨isSemicolon, ?_⟩
  cases up : place.parent with
  | none =>
    rw [← Place.map_kind_ancestors, Cursor.ancestors_of_root place up] at lies
    cases lies
  | some body =>
    rw [Place.enclosingKinds_of_parent place body up] at lies
    exact ⟨body, rfl, Option.some.inj lies⟩

/-- The rule in bodies of every grammatical shape, for member lists of any length and any nesting.
Between the braces of a class, an interface, an annotation, a record or an anonymous class inside a
type, every semicolon is reported. In the body of an enum exactly the semicolons after the first
are. In the body of a constant of an enum exactly those are that do not stand directly after the
opening brace. Nothing but a semicolon directly in a body is ever reported. -/
theorem visit_of_grammatical_bodies :
    (∀ body owner child : Place, ∀ before after : List Place, IsBody body owner →
      OwnsMembers owner → MemberBody body.focus.children →
      body.children = before ++ child :: after → child.kind = .semi → Reported child) ∧
    (∀ body owner child : Place, ∀ before after : List Place, IsBody body owner →
      owner.kind = .enumDef → EnumBody body.focus.children →
      body.children = before ++ child :: after → child.kind = .semi →
      if ∃ earlier ∈ before, Place.kind earlier = .semi then Reported child
        else Unreported child) ∧
    (∀ body owner child : Place, ∀ before after : List Place, IsBody body owner →
      owner.kind = .enumConstantDef → owner.inEnumBlock = true →
        MemberBody body.focus.children →
      body.children = before ++ child :: after → child.kind = .semi →
      if before.length = 1 then Unreported child else Reported child) ∧
    ∀ place : Place, ¬ Unreported place →
      place.kind = .semi ∧
        ∃ body : Place, place.parent = some body ∧ body.kind = .objBlock := by
  refine ⟨?_, ?_, ?_, ?_⟩
  · exact reported_in_member_body
  · exact visit_in_enum_body
  · exact visit_in_constant_body
  · exact in_body_of_reported

/-- The syntax tree of `enum { C { ; ; } ; class { ; field; ; } ; }`, with all nodes in one
place. -/
def sample : SyntaxTree :=
  let node (kind : Kind) (children : List SyntaxTree) :=
    Tree.node ⟨kind, kind.name, 1, 1⟩ children
  let leaf (kind : Kind) := node kind []
  node .enumDef [node .objBlock [leaf .lcurly,
    node .enumConstantDef [node .objBlock [leaf .lcurly, leaf .semi, leaf .semi, leaf .rcurly]],
    leaf .semi,
    node .classDef
      [node .objBlock [leaf .lcurly, leaf .semi, node .fieldDef [leaf .semi], leaf .semi,
        leaf .rcurly]],
    leaf .semi, leaf .rcurly]]

/-- The law holds at the last semicolon of each body of the sample, and at the two semicolons that
are left alone. -/
theorem visit_of_bodies_in_sample :
    Reported ((Cursor.top sample).follow
      [.first, .first, .next, .next, .next, .first, .last, .previous]) ∧
    Unreported ((Cursor.top sample).follow [.first, .first, .next, .next]) ∧
    Reported ((Cursor.top sample).follow [.first, .last, .previous]) ∧
    Unreported ((Cursor.top sample).follow [.first, .first, .next, .first, .first, .next]) ∧
    Reported ((Cursor.top sample).follow [.first, .first, .next, .first, .last, .previous]) ∧
    Place.kind ((Cursor.top sample).follow [.first, .last, .previous]) = .semi := by
  let enumOwner : Place := Cursor.top sample
  let enumBody : Place := enumOwner.follow [.first]
  let constant : Place := enumBody.follow [.first, .next]
  let constantBody : Place := constant.follow [.first]
  let inner : Place := enumBody.follow [.first, .next, .next, .next]
  let innerBody : Place := inner.follow [.first]
  have enumShape : EnumBody enumBody.focus.children :=
    ⟨[constant.focus], [(enumBody.follow [.first, .next, .next]).focus, inner.focus,
      (enumBody.follow [.last, .previous]).focus], ⟨_, _, rfl, rfl, rfl⟩, by
        simp only [List.mem_singleton, forall_eq]
        decide, Or.inr ⟨_, _, rfl, rfl, by
        simp only [List.mem_cons, List.not_mem_nil, or_false, forall_eq_or_imp, forall_eq]
        exact ⟨Or.inl (by decide), Or.inl (by decide)⟩⟩⟩
  have constantShape : MemberBody constantBody.focus.children :=
    ⟨[(constantBody.follow [.first, .next]).focus,
      (constantBody.follow [.last, .previous]).focus],
      ⟨_, _, rfl, rfl, rfl⟩, by
        simp only [List.mem_cons, List.not_mem_nil, or_false, forall_eq_or_imp, forall_eq]
        exact ⟨Or.inl (by decide), Or.inl (by decide)⟩⟩
  have innerShape : MemberBody innerBody.focus.children :=
    ⟨[(innerBody.follow [.first, .next]).focus, (innerBody.follow [.first, .next, .next]).focus,
      (innerBody.follow [.last, .previous]).focus], ⟨_, _, rfl, rfl, rfl⟩, by
        simp only [List.mem_cons, List.not_mem_nil, or_false, forall_eq_or_imp, forall_eq]
        exact ⟨Or.inl (by decide), Or.inr ⟨by decide, _, rfl, rfl⟩, Or.inl (by decide)⟩⟩
  have ⟨inMembers, inEnum, inConstant, onlyThere⟩ := visit_of_grammatical_bodies
  have last : Reported (enumBody.follow [.last, .previous]) :=
    inEnum enumBody enumOwner _ (enumBody.children.take 4) (enumBody.children.drop 5)
      ⟨rfl, rfl⟩ rfl enumShape rfl rfl
  refine ⟨?_, ?_, last, ?_, ?_, (onlyThere _ fun none => ?_).1⟩
  · exact inMembers innerBody inner _ (innerBody.children.take 3)
      (innerBody.children.drop 4) ⟨rfl, rfl⟩ (Or.inl (by decide)) innerShape rfl rfl
  · exact inEnum enumBody enumOwner _ (enumBody.children.take 2)
      (enumBody.children.drop 3) ⟨rfl, rfl⟩ rfl enumShape rfl rfl
  · exact inConstant constantBody constant _ (constantBody.children.take 1)
      (constantBody.children.drop 2) ⟨rfl, rfl⟩ rfl rfl constantShape rfl rfl
  · exact inConstant constantBody constant _ (constantBody.children.take 2)
      (constantBody.children.drop 3) ⟨rfl, rfl⟩ rfl rfl constantShape rfl rfl
  · cases last.symm.trans none

end StraySemicolon.MemberSemicolon

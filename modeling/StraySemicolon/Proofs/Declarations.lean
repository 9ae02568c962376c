import Mathlib.Data.List.Sort
import StraySemicolon.Proofs.Isolation
import StraySemicolon.Proofs.StraySemicolons

/-!
# Linting a file declaration by declaration

The members of a whole file can be linted one by one, each as the root of a tree of its own. Most of
what this changes cannot be seen by a check. No verdict depends on the node of the file being around
a member, for neither search stops at it and it is no body. A member itself is never reported, in
the file or alone. Only a semicolon between declarations gets another kind when it stands alone, and
neither of its two kinds can be seen by what is below it.

What is left is the order of the report: the reports of the members, put one after the other, have
the same issues as the report of the file, and one sort of finding has at most one issue for each
place.
-/

namespace StraySemicolon

/-- The kind of a node depends on where the node stands only if it is a semicolon or a block. -/
theorem Kind.ofType_congr (parent other : Option Kind)
    (semicolon : ofType ";" parent = ofType ";" other)
    (block : ofType "block" parent = ofType "block" other) (type : String) :
    ofType type parent = ofType type other := by
  rw [ofType_eq_lookup_rules, semicolon, block, ← ofType_eq_lookup_rules]

/-- Whether a node of this kind can be seen by a verdict on a node below it. -/
def Kind.isLandmark (kind : Kind) : Bool :=
  kind.isTypeDefinition || kind.isEnumBarrier || kind == .objBlock

theorem Kind.isLandmark_eq_false_iff (kind : Kind) :
    kind.isLandmark = false ↔
      kind.isTypeDefinition = false ∧ kind.isEnumBarrier = false ∧ kind ≠ .objBlock := by
  simp [Kind.isLandmark, and_assoc]

/-- The search for an enclosing enum passes by a node that is not a landmark. -/
theorem reachesEnum_append_of_not_landmark (inner : List Kind) (kind : Kind)
    (unseen : kind.isLandmark = false) : reachesEnum (inner ++ [kind]) = reachesEnum inner := by
  obtain ⟨noType, noBarrier, -⟩ := kind.isLandmark_eq_false_iff.mp unseen
  have noEnum : kind ≠ .enumDef := by
    rintro rfl
    cases noType
  have passed : (kind == .enumDef || kind.isEnumBarrier) = false := by simp [noEnum, noBarrier]
  rw [reachesEnum_eq, reachesEnum_eq, List.find?_append, List.find?_singleton, passed]
  simp

namespace MemberSemicolon

/-- No verdict changes when a tree is put below a node that is not a landmark. The root of the tree
is not reported before, since nothing encloses it, and not afterwards, since no body does. -/
theorem visit_within_of_not_landmark (place : Place) (frame : Frame SyntaxNode)
    (unseen : frame.label.kind.isLandmark = false) :
    visit (place.within [frame]) = visit place := by
  obtain ⟨noType, -, noBody⟩ := frame.label.kind.isLandmark_eq_false_iff.mp unseen
  rw [visit_eq, visit_eq, enclosingKinds_within]
  by_cases root : place.above = []
  · simp [Place.enclosingKinds, Cursor.enclosing, root, noBody]
  · have lies :
        (place.enclosingKinds ++ [frame.label.kind]).head? = place.enclosingKinds.head? := by
      apply List.head?_append_of_ne_nil
      simpa [Place.enclosingKinds, Cursor.enclosing] using root
    have redundant (before : Option (Kind × Option Kind)) :
        redundantAfter (place.enclosingKinds ++ [frame.label.kind]) before =
          redundantAfter place.enclosingKinds before := by
      simp only [redundantAfter, reachesEnum_append_of_not_landmark _ _ unseen, List.any_append,
        List.any_cons, List.any_nil, noType, Bool.or_false]
    simp only [List.map_cons, List.map_nil, lies, redundant, map_sight_previous_within place _ root]
    rfl

end MemberSemicolon

/-! ## What is raised in a file -/

theorem raised_registered_eq_flatMap_visit (tree : SyntaxTree) :
    Walk.raised Check.registered tree = (Cursor.top tree).walk.flatMap MemberSemicolon.visit := by
  rw [Walk.raised_eq_flatMap]
  exact List.flatMap_congr fun place _ => raisedAt_registered place

/-- Below a node that is not a landmark, every child raises what it raises as a tree of its own. -/
theorem flatMap_raised_siblings (node : SyntaxNode) (unseen : node.kind.isLandmark = false)
    (before trees : List SyntaxTree) :
    (Cursor.siblings node [] before trees).flatMap
      (fun child => child.walk.flatMap MemberSemicolon.visit) =
      trees.flatMap (Walk.raised Check.registered) := by
  induction trees generalizing before with
  | nil => rfl
  | cons tree rest inductionHypothesis =>
    have here :
        (⟨tree, [⟨node, before, rest⟩]⟩ : Place).walk.flatMap MemberSemicolon.visit =
          Walk.raised Check.registered tree := by
      change ((Cursor.top tree).within [⟨node, before, rest⟩]).walk.flatMap _ = _
      rw [Cursor.walk_within, List.flatMap_map, raised_registered_eq_flatMap_visit]
      exact List.flatMap_congr fun place _ =>
        MemberSemicolon.visit_within_of_not_landmark place _ unseen
    rw [Cursor.siblings, List.flatMap_cons, List.flatMap_cons, here, inductionHypothesis]

/-- A tree whose root is not a landmark raises what its children raise as trees of their own. -/
theorem raised_of_not_landmark (node : SyntaxNode) (unseen : node.kind.isLandmark = false)
    (children : List SyntaxTree) :
    Walk.raised Check.registered (.node node children) =
      children.flatMap (Walk.raised Check.registered) := by
  have root : MemberSemicolon.visit (Cursor.top (.node node children)) = [] := by
    rw [MemberSemicolon.visit_eq]
    simp [Place.enclosingKinds, Cursor.enclosing, Cursor.top]
  rw [raised_registered_eq_flatMap_visit, Cursor.walk_eq, List.flatMap_cons, root, List.nil_append,
    List.flatMap_assoc]
  exact flatMap_raised_siblings node unseen [] children

/-- A member of a file raises the same as a tree of its own. Only the kind of a semicolon is another
one, and both kinds make the same of what stands below them. -/
theorem raised_convert_member (member : ConcreteTree) :
    Walk.raised Check.registered (SyntaxTree.convert (some .compilationUnit) member) =
      Walk.raised Check.registered (SyntaxTree.convert none member) := by
  rw [SyntaxTree.convert_eq, SyntaxTree.convert_eq]
  by_cases semicolon : member.label.type = ";"
  · have below : SyntaxTree.convert (some .emptyStat) = SyntaxTree.convert (some .semi) := by
      funext tree
      rw [SyntaxTree.convert_eq, SyntaxTree.convert_eq, SyntaxNode.ofConcrete,
        SyntaxNode.ofConcrete, Kind.ofType_congr (some .emptyStat) (some .semi) rfl rfl]
    have statement : Kind.ofType member.label.type (some .compilationUnit) = .emptyStat := by
      rw [semicolon]
      rfl
    have token : Kind.ofType member.label.type none = .semi := by
      rw [semicolon]
      rfl
    rw [raised_of_not_landmark, raised_of_not_landmark, statement, token, below]
    · rw [SyntaxNode.ofConcrete, token]
      rfl
    · rw [SyntaxNode.ofConcrete, statement]
      rfl
  · have same : Kind.ofType member.label.type (some .compilationUnit) =
        Kind.ofType member.label.type none := by
      by_cases block : member.label.type = "block"
      · rw [block]
        rfl
      · rw [Kind.ofType_eq_lookup _ _ semicolon block, Kind.ofType_eq_lookup _ _ semicolon block]
    rw [SyntaxNode.ofConcrete, SyntaxNode.ofConcrete, same]

/-- In a whole file, everything is raised that the members raise as trees of their own, in order. -/
theorem raised_program (tree : ConcreteTree) (isProgram : tree.label.type = "program") :
    Walk.raised Check.registered (SyntaxTree.ofConcrete tree) =
      tree.members.flatMap fun member =>
        Walk.raised Check.registered (SyntaxTree.ofConcrete member) := by
  have file : Kind.ofType tree.label.type none = .compilationUnit := by
    rw [isProgram]
    rfl
  rw [SyntaxTree.ofConcrete_eq, SyntaxTree.convert_eq, raised_of_not_landmark,
    List.flatMap_map, file]
  · exact List.flatMap_congr fun member _ =>
      (raised_convert_member member).trans (by rw [SyntaxTree.ofConcrete_eq])
  · rw [SyntaxNode.ofConcrete, file]
    rfl

/-! ## The order of the report -/

namespace Walk

/-- What is reported of a list of issues of one sort with one text: each of them once, no two with
one place, in the order of their places. -/
theorem sorted_firsts_of_uniform (kind message : String) (raised : List Issue)
    (uniform : ∀ issue ∈ raised, issue.kind = kind ∧ issue.message = message) :
    ((firsts raised).mergeSort Issue.notAfter).Pairwise (fun first second =>
        first.line < second.line ∨ first.line = second.line ∧ first.col < second.col) ∧
      ∀ issue, issue ∈ (firsts raised).mergeSort Issue.notAfter ↔ issue ∈ raised := by
  have reports := reports_of_sorted_firsts raised
  refine ⟨reports.strictly_sorted kind fun issue member => (uniform issue member).1, ?_⟩
  apply reports.mem_issues_iff
  intro first memberFirst second memberSecond same
  obtain ⟨firstKind, line, col, firstMessage⟩ := first
  obtain ⟨secondKind, otherLine, otherCol, secondMessage⟩ := second
  obtain ⟨rfl, rfl⟩ := uniform _ memberFirst
  obtain ⟨rfl, rfl⟩ := uniform _ memberSecond
  simpa [Issue.key] using same

/-- Issues of one sort with one text are reported in the same way in whatever order they are raised,
and however often. -/
theorem sorted_firsts_eq_of_mem_iff (kind message : String) (raised other : List Issue)
    (uniform : ∀ issue ∈ raised, issue.kind = kind ∧ issue.message = message)
    (same : ∀ issue, issue ∈ raised ↔ issue ∈ other) :
    (firsts raised).mergeSort Issue.notAfter = (firsts other).mergeSort Issue.notAfter := by
  obtain ⟨sorted, members⟩ := sorted_firsts_of_uniform kind message raised uniform
  obtain ⟨otherSorted, otherMembers⟩ := sorted_firsts_of_uniform kind message other
    fun issue member => uniform issue ((same issue).mpr member)
  have antisymm : Std.Antisymm fun first second : Issue =>
      first.line < second.line ∨ first.line = second.line ∧ first.col < second.col :=
    ⟨fun first second before after => by omega⟩
  have irrefl : Std.Irrefl fun first second : Issue =>
      first.line < second.line ∨ first.line = second.line ∧ first.col < second.col :=
    ⟨fun first before => by omega⟩
  apply sorted.eq_of_mem_iff otherSorted
  intro issue
  rw [members, otherMembers, same]

end Walk

/-- Registered checks raise one sort of issue, with one text. -/
theorem uniform_raised (checks : List Check)
    (known : ∀ check ∈ checks, check ∈ Check.registered) (tree : SyntaxTree) :
    ∀ issue ∈ Walk.raised checks tree,
      issue.kind = MemberSemicolon.issueKind ∧ issue.message = MemberSemicolon.message := by
  intro issue member
  rw [Walk.raised_eq_flatMap] at member
  obtain ⟨place, -, found⟩ := List.mem_flatMap.mp member
  obtain ⟨check, listed, found⟩ := List.mem_flatMap.mp found
  obtain rfl : check = MemberSemicolon.check :=
    List.mem_singleton.mp (known check (List.mem_filter.mp listed).1)
  change issue ∈ MemberSemicolon.visit place at found
  rw [MemberSemicolon.visit] at found
  split at found
  · rw [List.mem_singleton.mp found]
    exact ⟨rfl, rfl⟩
  · cases found

theorem uniform_raised_registered (tree : SyntaxTree) :
    ∀ issue ∈ Walk.raised Check.registered tree,
      issue.kind = MemberSemicolon.issueKind ∧ issue.message = MemberSemicolon.message :=
  uniform_raised Check.registered (fun _ member => member) tree

/-- What a lint run with the registered check reports. -/
theorem outcome_lint_registered (parsed : Parsed) (names : Option (List String))
    (resolved : Check.resolve names = .ok Check.registered) :
    (lint parsed names).outcome =
      .ok ((Walk.firsts (Walk.raised Check.registered parsed.root)).mergeSort Issue.notAfter) := by
  rw [lint, resolved]
  exact congrArg (fun walk => Except.ok walk.issues) (Walk.run_eq Check.registered parsed.root)

/-- The names that select the registered check: no names at all, or its own name any number of
times. -/
def selection (repetitions : Option Nat) : Option (List String) :=
  repetitions.map fun further =>
    List.replicate (further + 1) "UnnecessarySemicolonAfterTypeMemberDeclaration"

theorem resolve_selection (repetitions : Option Nat) :
    Check.resolve (selection repetitions) = .ok Check.registered := by
  cases repetitions with
  | none => rfl
  | some further => exact resolve_repeated further

/-- A file is linted declaration by declaration. Lint runs on the members of a file, each as a tree
of its own, all succeed, and so does the run on the file. It reports what they report one after the
other: of each sort and place the first issue, sorted by place, with issues of one place left in
their order. -/
theorem lint_program_eq_lint_members (parsed : Parsed) (repetitions : Option Nat)
    (source : ConcreteTree → Bytes) (hasError : ConcreteTree → Bool)
    (isProgram : parsed.tree.label.type = "program") :
    ∃ reports : List (List Issue),
      parsed.tree.members.map (fun member =>
        (lint ⟨member, source member, hasError member⟩ (selection repetitions)).outcome) =
          reports.map .ok ∧
      (lint parsed (selection repetitions)).outcome =
        .ok ((Walk.firsts reports.flatten).mergeSort Issue.notAfter) := by
  let report (tree : ConcreteTree) : List Issue :=
    (Walk.firsts (Walk.raised Check.registered (SyntaxTree.ofConcrete tree))).mergeSort
      Issue.notAfter
  have outcome (parsed : Parsed) := outcome_lint_registered parsed _ (resolve_selection repetitions)
  refine ⟨parsed.tree.members.map report, ?_, ?_⟩
  · rw [List.map_map]
    exact List.map_congr_left fun member _ => outcome ⟨member, source member, hasError member⟩
  · refine (outcome parsed).trans (congrArg Except.ok ?_)
    apply Walk.sorted_firsts_eq_of_mem_iff MemberSemicolon.issueKind MemberSemicolon.message
    · exact uniform_raised_registered parsed.root
    · intro issue
      have reported (member : ConcreteTree) : issue ∈ report member ↔
          issue ∈ Walk.raised Check.registered (SyntaxTree.ofConcrete member) :=
        (Walk.sorted_firsts_of_uniform _ _ _ (uniform_raised_registered _)).2 issue
      rw [Parsed.root, raised_program parsed.tree isProgram]
      simp only [List.mem_flatten, List.mem_map, List.mem_flatMap]
      constructor
      · rintro ⟨member, listed, raised⟩
        exact ⟨report member, ⟨member, listed, rfl⟩, (reported member).mpr raised⟩
      · rintro ⟨_, ⟨member, listed, rfl⟩, found⟩
        exact ⟨member, listed, (reported member).mp found⟩

/-- The concrete tree of `class { ; } ; class { method ; }` with a comment before the second
class. -/
def twoClasses : ConcreteTree :=
  let node (type : String) (column : Int) (children : List ConcreteTree) : ConcreteTree :=
    .node ⟨type, ⟨0, column⟩, 0, 0, false⟩ children
  let declare (column : Int) (members : List ConcreteTree) : ConcreteTree :=
    node "class_declaration" column [node "class_body" column
      ([node "\x7b" column []] ++ members ++ [node "\x7d" (column + 3) []])]
  node "program" 0 [declare 0 [node ";" 1 []], node ";" 5 [], node "block_comment" 6 [],
    declare 7 [node "method_declaration" 8 [], node ";" 9 []]]

/-- The file is made of three members, the comment not counted, and its report is put together from
theirs. -/
theorem lint_two_classes :
    twoClasses.label.type = "program" ∧
    twoClasses.members.map (fun member => member.label.type) =
      ["class_declaration", ";", "class_declaration"] ∧
    ∃ reports : List (List Issue),
      twoClasses.members.map (fun member => (lint ⟨member, [], false⟩ none).outcome) =
        reports.map .ok ∧
      (lint ⟨twoClasses, [], true⟩ none).outcome =
        .ok ((Walk.firsts reports.flatten).mergeSort Issue.notAfter) :=
  ⟨rfl, rfl,
    lint_program_eq_lint_members ⟨twoClasses, [], true⟩ none (fun _ => [])
      (fun _ => false) rfl⟩

end StraySemicolon

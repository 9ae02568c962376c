import StraySemicolon.Lint
import StraySemicolon.Proofs.KeptPlaces
import StraySemicolon.Proofs.Walker

/-!
# The semicolons that a lint run reports

`ConcretePlace.isStray` says of a node of the concrete tree whether it is a semicolon that
terminates nothing. It looks at the rules of kept nodes and at how they lie in the concrete tree,
and knows neither kinds nor the syntax tree. A lint run reports exactly the stray semicolons, each
place once and in the order of the source.
-/

namespace StraySemicolon

namespace ConcretePlace

/-! ## Stray semicolons -/

/-- The rules of the bodies of types. -/
def bodyTypes : List String :=
  ["class_body", "interface_body", "enum_body", "annotation_type_body"]

/-- The rules of type declarations. -/
def declarationTypes : List String :=
  ["class_declaration", "interface_declaration", "enum_declaration", "annotation_type_declaration",
    "record_declaration"]

/-- The rules of members that their own body closes. Directly in the body of a type, a block
initializes instances. -/
def closedTypes : List String :=
  ["block", "static_initializer", "constructor_declaration", "compact_constructor_declaration",
    "method_declaration"]

/-- The rules of declarations that end in a semicolon of their own. -/
def terminatedTypes : List String :=
  ["field_declaration", "constant_declaration", "annotation_type_element_declaration"]

/-- The rules of nodes whose body has members. -/
def scopeTypes : List String :=
  declarationTypes ++ ["object_creation_expression"]

/-- The nearest kept node around a node that is a type declaration or creates an object. -/
def scope? (place : ConcretePlace) : Option ConcretePlace :=
  (place.ancestors.filter isKept).find? fun enclosing => scopeTypes.contains enclosing.label.type

/-- Whether the nearest scope is an enum. -/
def isInEnum (place : ConcretePlace) : Bool :=
  (scope? place).any fun scope => scope.label.type == "enum_declaration"

/-- Whether a kept type declaration encloses the node. -/
def isInDeclaration (place : ConcretePlace) : Bool :=
  (place.ancestors.filter isKept).any fun enclosing =>
    declarationTypes.contains enclosing.label.type

/-- Whether a declaration ends in a semicolon of its own, not counting nodes that are not kept. -/
def isTerminated (place : ConcretePlace) : Bool :=
  (last? place).any fun last => last.label.type == ";"

/-- Whether there is nothing for a semicolon to terminate: it starts a body that is no enum's, or it
follows another semicolon, a member with a body, a terminated declaration or a nested type. -/
def terminatesNothing (place : ConcretePlace) : Bool :=
  match before? place with
  | none => !isInEnum place
  | some sibling =>
    sibling.label.type == "\x7b" && !isInEnum place ||
      sibling.label.type == ";" ||
      closedTypes.contains sibling.label.type ||
      terminatedTypes.contains sibling.label.type && isTerminated sibling ||
      declarationTypes.contains sibling.label.type && isInDeclaration place

/-- Whether a node is a semicolon directly in the body of a type that terminates nothing. -/
def isStray (place : ConcretePlace) : Bool :=
  isKept place && place.label.type == ";" &&
    (up? place).any (fun body => bodyTypes.contains body.label.type) && terminatesNothing place

end ConcretePlace

/-! ## Rules and kinds -/

namespace Kind

/-- The kinds of all rules, for given kinds of semicolons and blocks. -/
def rules (semicolon block : Kind) : List (String × Kind) :=
  (";", semicolon) :: ("block", block) :: table

theorem rules_nodup (semicolon block : Kind) : ((rules semicolon block).map Prod.fst).Nodup := by
  have keys : (rules semicolon block).map Prod.fst = (rules other other).map Prod.fst := rfl
  rw [keys]
  decide

theorem ofType_eq_lookup_rules (type : String) (parent : Option Kind) :
    ofType type parent =
      ((rules (ofType ";" parent) (ofType "block" parent)).lookup type).getD other := by
  by_cases semicolon : type = ";"
  · subst semicolon
    rfl
  · by_cases block : type = "block"
    · subst block
      rfl
    · have notSemicolon : (type == ";") = false := beq_eq_false_iff_ne.mpr semicolon
      have notBlock : (type == "block") = false := beq_eq_false_iff_ne.mpr block
      rw [ofType_eq_lookup type parent semicolon block, rules, List.lookup_cons, notSemicolon,
        List.lookup_cons, notBlock]

/-- The entry of a rule passes a test if and only if the rule is among those whose entries do. -/
theorem test_lookup (test : Kind → Bool) (silent : test other = false)
    (entries : List (String × Kind)) (distinct : (entries.map Prod.fst).Nodup) (type : String) :
    test ((entries.lookup type).getD other) =
      ((entries.filter fun entry => test entry.2).map Prod.fst).contains type := by
  induction entries with
  | nil => simpa using silent
  | cons entry rest inductionHypothesis =>
    obtain ⟨known, kind⟩ := entry
    obtain ⟨fresh, distinct⟩ := List.nodup_cons.mp distinct
    by_cases same : type = known
    · subst same
      have absent : type ∉ (rest.filter fun entry => test entry.2).map Prod.fst := by
        intro member
        exact fresh ((List.filter_sublist.map Prod.fst).subset member)
      cases passes : test kind <;> simp_all
    · have differs : (type == known) = false := beq_eq_false_iff_ne.mpr same
      rw [List.lookup_cons, differs, List.filter_cons]
      cases passes : test kind <;> simp_all

/-- A test on kinds is a test on rules. -/
theorem test_ofType (test : Kind → Bool) (silent : test other = false) (types : List String)
    (parent : Option Kind) (type : String)
    (listed : ((rules (ofType ";" parent) (ofType "block" parent)).filter
      fun entry => test entry.2).map Prod.fst = types) :
    test (ofType type parent) = types.contains type := by
  rw [ofType_eq_lookup_rules, test_lookup test silent _ (rules_nodup _ _), listed]

/-- A test that no semicolon and no block can pass does not depend on where a node stands. -/
theorem test_ofType_anywhere (test : Kind → Bool) (types : List String)
    (silent : [other, semi, emptyStat, instanceInit, slist].all (fun kind => !test kind) = true)
    (listed : (table.filter fun entry => test entry.2).map Prod.fst = types)
    (parent : Option Kind) (type : String) : test (ofType type parent) = types.contains type := by
  simp only [List.all_cons, List.all_nil, Bool.and_true, Bool.and_eq_true,
    Bool.not_eq_true'] at silent
  obtain ⟨unlisted, semicolon, statement, initializer, block⟩ := silent
  apply test_ofType test unlisted
  have noSemicolon : test (ofType ";" parent) = false := by
    change test
      (if parent = some compilationUnit ∨ parent = some slist then emptyStat else semi) = false
    split <;> assumption
  have noBlock : test (ofType "block" parent) = false := by
    change test (if parent = some objBlock then instanceInit else slist) = false
    split <;> assumption
  rw [rules, List.filter_cons_of_neg (by simp [noSemicolon]),
    List.filter_cons_of_neg (by simp [noBlock]), listed]

/-- Below a node that is neither a whole file nor a block, the semicolons are those of that rule. -/
theorem isSemi_ofType (parent : Kind) (plain : ofType ";" (some parent) = semi) (type : String) :
    (ofType type (some parent) == semi) = (type == ";") := by
  rw [test_ofType (· == semi) rfl [";"], List.contains_cons, List.contains_nil, Bool.or_false]
  rw [plain]
  by_cases body : parent = objBlock
  · subst body
    rfl
  · have block : ofType "block" (some parent) = slist := if_neg (by simpa using body)
    rw [block]
    rfl

end Kind

namespace ConcretePlace

theorem isTypeDefinition_converted (place : ConcretePlace) :
    (converted place).kind.isTypeDefinition = declarationTypes.contains place.label.type := by
  rw [kind_converted]
  exact Kind.test_ofType_anywhere Kind.isTypeDefinition declarationTypes rfl rfl _ _

theorem isObjBlock_converted (place : ConcretePlace) :
    ((converted place).kind == .objBlock) = bodyTypes.contains place.label.type := by
  rw [kind_converted]
  exact Kind.test_ofType_anywhere (· == .objBlock) bodyTypes rfl rfl _ _

theorem isEnumDef_converted (place : ConcretePlace) :
    ((converted place).kind == .enumDef) = (place.label.type == "enum_declaration") := by
  rw [kind_converted, Kind.test_ofType_anywhere (· == .enumDef) ["enum_declaration"] rfl rfl,
    List.contains_cons, List.contains_nil, Bool.or_false]

/-- The nodes at which the search for an enclosing enum ends are those of the scope types. -/
theorem isScope_converted (place : ConcretePlace) :
    ((converted place).kind == .enumDef || (converted place).kind.isEnumBarrier) =
      scopeTypes.contains place.label.type := by
  rw [kind_converted]
  exact Kind.test_ofType_anywhere (fun kind => kind == .enumDef || kind.isEnumBarrier) scopeTypes
    rfl rfl _ _

end ConcretePlace

/-- The search for an enclosing enum looks at the nearest scope only. -/
theorem reachesEnum_eq (kinds : List Kind) :
    reachesEnum kinds =
      ((kinds.find? fun kind => kind == .enumDef || kind.isEnumBarrier).any (· == .enumDef)) := by
  induction kinds with
  | nil => rfl
  | cons kind outer inductionHypothesis =>
    cases kind <;> simp [reachesEnum, Kind.isEnumBarrier, inductionHypothesis]

namespace MemberSemicolon

/-- The cases of the verdict exclude each other, so their order does not matter. -/
theorem redundantAfter_some (enclosing : List Kind) (kind : Kind) (last : Option Kind) :
    redundantAfter enclosing (some (kind, last)) =
      (kind == .lcurly && !reachesEnum enclosing || kind == .semi || kind.isSelfClosing ||
        kind.isTerminated && last == some .semi ||
        kind.isTypeDefinition && enclosing.any Kind.isTypeDefinition) := by
  cases kind <;> simp [redundantAfter, Kind.isSelfClosing, Kind.isTerminated, Kind.isTypeDefinition]

end MemberSemicolon

namespace ConcretePlace

/-! ## The verdict on the concrete tree -/

/-- The check and the concrete tree agree on the enclosing enum. -/
theorem reachesEnum_converted (place : ConcretePlace) (kept : isKept place = true) :
    reachesEnum (converted place).enclosingKinds = isInEnum place := by
  have scopes :
      ((fun kind => kind == .enumDef || kind.isEnumBarrier) ∘ fun enclosing : ConcretePlace =>
        (converted enclosing).kind) = fun enclosing => scopeTypes.contains enclosing.label.type :=
    funext isScope_converted
  rw [reachesEnum_eq, enclosingKinds_converted place kept, List.find?_map, scopes, Option.any_map]
  exact congrArg (fun test => (scope? place).any test) (funext isEnumDef_converted)

/-- The check and the concrete tree agree on enclosing declarations. -/
theorem any_isTypeDefinition_converted (place : ConcretePlace) (kept : isKept place = true) :
    (converted place).enclosingKinds.any Kind.isTypeDefinition = isInDeclaration place := by
  rw [enclosingKinds_converted place kept, List.any_map]
  exact congrArg (fun test => (place.ancestors.filter isKept).any test)
    (funext isTypeDefinition_converted)

/-- The check and the concrete tree agree on how a declaration ends. -/
theorem isTerminated_converted (place : ConcretePlace) (kept : isKept place = true)
    (declares : (converted place).kind.isTerminated = true) :
    ((converted place).last.map Place.kind == some .semi) = isTerminated place := by
  rw [last_converted place kept, Option.map_map, isTerminated]
  cases ends : last? place with
  | none => rfl
  | some last =>
    have chosen := (List.mem_filter.mp (List.mem_of_getLast? ends)).2
    rw [Bool.and_eq_true, decide_eq_true_eq] at chosen
    have plain : Kind.ofType ";" (some (converted place).kind) = .semi := by
      cases kind : (converted place).kind with
      | compilationUnit | slist =>
        rw [kind] at declares
        cases declares
      | _ => rfl
    have semicolon := Kind.isSemi_ofType (converted place).kind plain last.label.type
    rw [← kind_converted_of_up last place chosen.1 chosen.2] at semicolon
    exact semicolon

/-- In the body of a type, the check and the concrete tree agree on whether there is anything to
terminate. -/
theorem redundantAfter_converted (place body : ConcretePlace) (kept : isKept place = true)
    (found : up? place = some body) (inBody : (converted body).kind = .objBlock) :
    MemberSemicolon.redundantAfter (converted place).enclosingKinds
      ((converted place).previous.map MemberSemicolon.sight) = terminatesNothing place := by
  rw [previous_converted place body kept found, Option.map_map, terminatesNothing]
  cases before : before? place with
  | none => simp [MemberSemicolon.redundantAfter, reachesEnum_converted place kept]
  | some sibling =>
    have chosen := (List.mem_filter.mp (List.mem_of_getLast? before)).2
    rw [Bool.and_eq_true, decide_eq_true_eq] at chosen
    have kind := kind_converted_of_up sibling body chosen.1 (chosen.2.trans found)
    rw [inBody] at kind
    have brace : ((converted sibling).kind == .lcurly) = (sibling.label.type == "\x7b") := by
      rw [kind, Kind.test_ofType_anywhere (· == .lcurly) ["\x7b"] rfl rfl, List.contains_cons,
        List.contains_nil, Bool.or_false]
    have semicolon : ((converted sibling).kind == .semi) = (sibling.label.type == ";") := by
      rw [kind, Kind.isSemi_ofType .objBlock rfl]
    have closed :
        (converted sibling).kind.isSelfClosing = closedTypes.contains sibling.label.type := by
      rw [kind]
      exact Kind.test_ofType Kind.isSelfClosing rfl closedTypes _ _ rfl
    have declares : (converted sibling).kind.isTerminated =
        terminatedTypes.contains sibling.label.type := by
      rw [kind]
      exact Kind.test_ofType Kind.isTerminated rfl terminatedTypes _ _ rfl
    have terminated : ((converted sibling).kind.isTerminated &&
        (converted sibling).last.map Place.kind == some .semi) =
          (terminatedTypes.contains sibling.label.type && isTerminated sibling) := by
      cases ends : (converted sibling).kind.isTerminated with
      | true => rw [isTerminated_converted sibling chosen.1 ends, ← declares, ends]
      | false => rw [← declares, ends, Bool.false_and, Bool.false_and]
    simp only [Option.map_some, Function.comp_apply, MemberSemicolon.sight]
    rw [MemberSemicolon.redundantAfter_some, brace, semicolon, closed, terminated,
      isTypeDefinition_converted, reachesEnum_converted place kept,
      any_isTypeDefinition_converted place kept]

/-- A kept node is a stray semicolon if and only if its converted node is a semicolon in the body of
a type that the verdict is against. -/
theorem isStray_iff (place : ConcretePlace) (kept : isKept place = true) :
    isStray place = true ↔
      (converted place).kind = .semi ∧ (converted place).enclosingKinds.head? = some .objBlock ∧
        MemberSemicolon.redundantAfter (converted place).enclosingKinds
          ((converted place).previous.map MemberSemicolon.sight) = true := by
  rw [isStray, kept, head?_enclosingKinds_converted place kept]
  cases found : up? place with
  | none => simp
  | some body =>
    rw [Option.any_some, Option.map_some, Option.some.injEq, ← isObjBlock_converted]
    by_cases inBody : (converted body).kind = .objBlock
    · have semicolon : ((converted place).kind == .semi) = (place.label.type == ";") := by
        rw [kind_converted_of_up place body kept found, inBody, Kind.isSemi_ofType .objBlock rfl]
      rw [redundantAfter_converted place body kept found inBody, ← semicolon, inBody]
      simp
    · simp [inBody]

/-- The check reports the converted node of a kept node exactly when the node is a stray
semicolon. -/
theorem visit_converted (place : ConcretePlace) (kept : isKept place = true) :
    MemberSemicolon.visit (converted place) =
      if isStray place then
        [⟨MemberSemicolon.issueKind, place.label.start.row + 1, place.label.start.column + 1,
          MemberSemicolon.message⟩]
      else [] := by
  rw [MemberSemicolon.visit_eq]
  simp only [← isStray_iff place kept]
  rfl

end ConcretePlace

/-! ## Reports of one sort of finding -/

namespace Walk

/-- If a key fixes an issue, a report holds exactly the issues that were raised. -/
theorem Reports.mem_issues_iff {raised : List Issue} {walk : Walk} (reports : Reports raised walk)
    (fixed : ∀ first ∈ raised, ∀ second ∈ raised, first.key = second.key → first = second)
    (issue : Issue) : issue ∈ walk.issues ↔ issue ∈ raised := by
  constructor
  · intro reported
    exact reports.complete.subset (List.mem_append_left _ reported)
  · intro member
    have sought : (raised.find? fun other => other.key == issue.key).isSome := by
      rw [List.find?_isSome]
      exact ⟨issue, member, beq_self_eq_true _⟩
    obtain ⟨first, found⟩ := Option.isSome_iff_exists.mp sought
    have same : first.key = issue.key := by simpa using List.find?_some found
    rw [fixed first (List.mem_of_find?_eq_some found) issue member same, ← reports.first] at found
    exact List.mem_of_find?_eq_some found

/-- If all issues are of one sort, no two of a report share a place. -/
theorem Reports.strictly_sorted {raised : List Issue} {walk : Walk} (reports : Reports raised walk)
    (kind : String) (uniform : ∀ issue ∈ raised, issue.kind = kind) :
    walk.issues.Pairwise fun first second =>
      first.line < second.line ∨ first.line = second.line ∧ first.col < second.col := by
  have kinds (issue : Issue) (reported : issue ∈ walk.issues) : issue.kind = kind :=
    uniform issue (reports.complete.subset (List.mem_append_left _ reported))
  refine (reports.sorted.and (List.pairwise_map.mp reports.distinct)).imp_of_mem ?_
  rintro first second memberFirst memberSecond ⟨ordered, apart⟩
  rcases ordered with above | ⟨line, column⟩
  · exact Or.inl above
  · refine Or.inr ⟨line, Int.lt_iff_le_and_ne.mpr ⟨column, ?_⟩⟩
    intro same
    apply apart
    rw [Issue.key, Issue.key, kinds first memberFirst, kinds second memberSecond, line, same]

end Walk

/-! ## Lint runs -/

/-- What is reported of a stray semicolon. -/
def ConcretePlace.issue (place : ConcretePlace) : Issue :=
  ⟨"unnecessary.semicolon", place.label.start.row + 1, place.label.start.column + 1,
    "Unnecessary semicolon."⟩

/-- The place in the source fixes what is reported. -/
theorem ConcretePlace.issue_eq_of_key (first second : ConcretePlace)
    (same : first.issue.key = second.issue.key) : first.issue = second.issue := by
  simp only [issue, Issue.key, Prod.mk.injEq, true_and] at same
  obtain ⟨line, column⟩ := same
  rw [issue, issue, line, column]

/-- However often it is named, the one registered check is resolved once. -/
theorem resolve_repeated (further : Nat) :
    Check.resolve (some (List.replicate (further + 1) MemberSemicolon.name)) =
      .ok Check.registered := by
  have known : Check.lookup? MemberSemicolon.name = some MemberSemicolon.check := by
    simp [Check.lookup?, Check.registered, MemberSemicolon.check]
  have again (count : Nat) : Check.resolveFrom [MemberSemicolon.check]
      (List.replicate count MemberSemicolon.name) = .ok [MemberSemicolon.check] := by
    induction count with
    | zero => rfl
    | succ count inductionHypothesis =>
      simpa [List.replicate_succ, Check.resolveFrom, known] using inductionHypothesis
  have first : Check.resolve (some (List.replicate (further + 1) MemberSemicolon.name)) =
      Check.resolveFrom [MemberSemicolon.check] (List.replicate further MemberSemicolon.name) := by
    simp [Check.resolve, List.replicate_succ, Check.resolveFrom, known]
  rw [first, again further]
  rfl

/-- The registered check is shown the semicolons only, and has nothing to say of other nodes. -/
theorem raisedAt_registered (place : Place) :
    Walk.raisedAt Check.registered place = MemberSemicolon.visit place := by
  by_cases semicolon : place.kind = .semi
  · simp [Walk.raisedAt, Check.registered, MemberSemicolon.check, semicolon]
  · simp [Walk.raisedAt, Check.registered, MemberSemicolon.check, semicolon,
      MemberSemicolon.visit_eq]

/-- In a converted tree, the issues of the stray semicolons are raised, in the order of the
source. -/
theorem raised_registered (tree : ConcreteTree) :
    Walk.raised Check.registered (SyntaxTree.ofConcrete tree) =
      ((Cursor.top tree).walk.filter ConcretePlace.isStray).map ConcretePlace.issue := by
  rw [Walk.raised_eq_flatMap, ConcretePlace.walk_ofConcrete, List.flatMap_map]
  induction (Cursor.top tree).walk with
  | nil => rfl
  | cons place rest inductionHypothesis =>
    cases kept : ConcretePlace.isKept place with
    | true =>
      rw [List.filter_cons_of_pos kept, List.flatMap_cons, inductionHypothesis, raisedAt_registered,
        ConcretePlace.visit_converted place kept, List.filter_cons]
      cases ConcretePlace.isStray place <;> rfl
    | false =>
      have unheard : ConcretePlace.isStray place = false := by
        simp [ConcretePlace.isStray, kept]
      rw [List.filter_cons_of_neg (by simp [kept]), inductionHypothesis,
        List.filter_cons_of_neg (by simp [unheard])]

/-- A lint run with all checks, or with the one registered check named any number of times,
succeeds. It reports exactly the stray semicolons of the concrete tree, in the order of their places
and each place once, whatever the source text is and whether or not the reader met an error. -/
theorem lint_reports_stray_semicolons (parsed : Parsed) (repetitions : Option Nat) :
    ∃ issues : List Issue,
      (lint parsed (repetitions.map fun further =>
        List.replicate (further + 1) "UnnecessarySemicolonAfterTypeMemberDeclaration")).outcome =
          .ok issues ∧
      issues.Pairwise (fun first second =>
        first.line < second.line ∨ first.line = second.line ∧ first.col < second.col) ∧
      ∀ issue : Issue, issue ∈ issues ↔
        ∃ place ∈ (Cursor.top parsed.tree).walk,
          ConcretePlace.isStray place = true ∧
            issue = ⟨"unnecessary.semicolon", place.label.start.row + 1,
              place.label.start.column + 1, "Unnecessary semicolon."⟩ := by
  have resolved : Check.resolve (repetitions.map fun further =>
      List.replicate (further + 1) "UnnecessarySemicolonAfterTypeMemberDeclaration") =
        .ok Check.registered := by
    cases repetitions with
    | none => rfl
    | some further => exact resolve_repeated further
  have reports : Walk.Reports (Walk.raised Check.registered parsed.root)
      (Walk.run Check.registered parsed.root) := by
    rw [Walk.run_eq]
    exact Walk.reports_of_sorted_firsts _
  have raised : Walk.raised Check.registered parsed.root =
      ((Cursor.top parsed.tree).walk.filter ConcretePlace.isStray).map ConcretePlace.issue :=
    raised_registered parsed.tree
  rw [raised] at reports
  refine ⟨(Walk.run Check.registered parsed.root).issues, ?_, ?_, ?_⟩
  · rw [lint, resolved]
  · apply reports.strictly_sorted "unnecessary.semicolon"
    intro issue member
    obtain ⟨place, -, rfl⟩ := List.mem_map.mp member
    rfl
  · intro issue
    rw [reports.mem_issues_iff, List.mem_map]
    · simp only [List.mem_filter, and_assoc]
      constructor
      · rintro ⟨place, listed, stray, rfl⟩
        exact ⟨place, listed, stray, rfl⟩
      · rintro ⟨place, listed, stray, rfl⟩
        exact ⟨place, listed, stray, rfl⟩
    · intro first memberFirst second memberSecond same
      obtain ⟨one, -, rfl⟩ := List.mem_map.mp memberFirst
      obtain ⟨other, -, rfl⟩ := List.mem_map.mp memberSecond
      exact ConcretePlace.issue_eq_of_key one other same

/-- A comment between a field and a semicolon hides nothing, and a semicolon inside it is no
member. -/
example :
    let node (type : String) (column : Int) (children : List ConcreteTree) : ConcreteTree :=
      .node ⟨type, ⟨0, column⟩, 0, 0, false⟩ children
    let tree := node "class_body" 0 [node "\x7b" 0 [], node "field_declaration" 1 [node ";" 2 []],
      node "block_comment" 3 [node ";" 4 []], node ";" 5 [], node "\x7d" 6 []]
    ((Cursor.top tree).walk.filter ConcretePlace.isStray).map ConcretePlace.issue =
      [⟨"unnecessary.semicolon", 1, 6, "Unnecessary semicolon."⟩] := by
  cbv

end StraySemicolon

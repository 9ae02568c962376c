import StraySemicolon.FileLint
import StraySemicolon.Proofs.Conversion
import StraySemicolon.Proofs.Selection
import StraySemicolon.Proofs.Walker

/-!
# The trace of a lint run

A lint run goes through three stages: it warns of the source that no rule accepts, it resolves the
names of checks, and it walks the tree. Resolving can fail. The warnings have been given by then,
and nothing else has been noted.

The warnings are for all nodes of the concrete tree, also for those that conversion drops.
`ConcreteTree.errorNodes` lists them by recursion, and a filter on the stack-driven preorder finds
the same.

Names may be repeated at no cost: a check is resolved once, so it is asked once. This is unlike a
list of checks that repeats a check, whose second answers are all noted as duplicates.
-/

namespace StraySemicolon

namespace ConcreteTree

mutual

/-- The nodes that no rule accepts, each before those below it, wherever they stand. -/
def errorNodes : ConcreteTree → List ConcreteNode
  | .node label children =>
    if label.type = "ERROR" then label :: errorNodesAll children else errorNodesAll children

/-- The nodes that no rule accepts in a list of trees, tree by tree. -/
def errorNodesAll : List ConcreteTree → List ConcreteNode
  | [] => []
  | first :: rest => errorNodes first ++ errorNodesAll rest

end

mutual

theorem filter_isError_preorder : ∀ tree : ConcreteTree,
    tree.preorder.filter ConcreteNode.isError = errorNodes tree
  | .node label children => by
    have below := filter_isError_preorder_children children
    rw [Tree.preorder_node, List.filter_cons, below, errorNodes]
    simp only [ConcreteNode.isError, ConcreteNode.errorType, beq_iff_eq]

theorem filter_isError_preorder_children : ∀ trees : List ConcreteTree,
    (trees.flatMap Tree.preorder).filter ConcreteNode.isError = errorNodesAll trees
  | [] => rfl
  | first :: rest => by
    rw [List.flatMap_cons, List.filter_append, filter_isError_preorder first,
      filter_isError_preorder_children rest, errorNodesAll]

end

end ConcreteTree

/-- The warnings of a source, listed by recursion on its tree. -/
theorem Parsed.parseErrors_eq (parsed : Parsed) :
    parsed.parseErrors =
      if parsed.hasError then (ConcreteTree.errorNodes parsed.tree).map parsed.parseError
        else [] := by
  rw [Parsed.parseErrors, ConcreteTree.filter_isError_preorder]

theorem Parsed.level_of_mem_parseErrors (parsed : Parsed) (event : TraceEvent)
    (warned : event ∈ parsed.parseErrors) : (Note.event event).level = .warning := by
  rw [Parsed.parseErrors] at warned
  split at warned
  · obtain ⟨node, -, rfl⟩ := List.mem_map.mp warned
    rfl
  · simp at warned

/-- The names that a refusal offers are the registered ones, in ascending order. -/
theorem Check.mergeSort_registeredNames :
    (registeredNames.mergeSort fun left right => decide (left ≤ right)).Perm registeredNames ∧
      (registeredNames.mergeSort fun left right => decide (left ≤ right)).Pairwise
        (· ≤ ·) := by
  refine ⟨List.mergeSort_perm _ _, ?_⟩
  have sorted := @List.pairwise_mergeSort String (fun left right => decide (left ≤ right))
    (by simpa using fun _ _ _ => String.le_trans) (by simpa using String.le_total) registeredNames
  exact sorted.imp fun before => by simpa using before

/-- A lint run that refuses a name has warned and done nothing else. -/
theorem lint_of_refused (parsed : Parsed) (names : Option (List String)) (unknown : UnknownCheck)
    (refused : Check.resolve names = .error unknown) :
    lint parsed names = ⟨parsed.parseErrors, .error unknown⟩ := by
  rw [lint, refused]

/-- A lint run whose checks are found warns, suppresses and reports, in this order. -/
theorem lint_of_resolved (parsed : Parsed) (names : Option (List String)) (checks : List Check)
    (resolved : Check.resolve names = .ok checks) :
    lint parsed names =
      ⟨parsed.parseErrors ++ (Walk.run checks parsed.root).suppressed.map .duplicate ++
        (Walk.run checks parsed.root).issues.map .finding,
          .ok (Walk.run checks parsed.root).issues⟩ := by
  rw [lint, resolved]

/-- Construction fails exactly on a name that is not registered. -/
theorem outcome_lint_eq_error_iff (parsed : Parsed) (names : Option (List String)) :
    (∃ unknown, (lint parsed names).outcome = .error unknown) ↔
      ∃ asked, names = some asked ∧ ∃ name ∈ asked, name ∉ Check.registeredNames := by
  cases names with
  | none =>
    rw [lint_of_resolved parsed none Check.registered rfl]
    simp
  | some asked =>
    cases found : asked.find? fun name => decide (name ∉ Check.registeredNames) with
    | some name =>
      have refused := Check.resolve_eq asked
      simp only [found] at refused
      rw [lint_of_refused parsed _ _ refused]
      have unknown : name ∉ Check.registeredNames := by simpa using List.find?_some found
      exact ⟨fun _ => ⟨asked, rfl, name, List.mem_of_find?_eq_some found, unknown⟩,
        fun _ => ⟨_, rfl⟩⟩
    | none =>
      have resolved := Check.resolve_eq asked
      simp only [found] at resolved
      rw [lint_of_resolved parsed _ _ resolved]
      have known : ∀ name ∈ asked, name ∈ Check.registeredNames := by simpa using found
      constructor
      · rintro ⟨unknown, failed⟩
        cases failed
      · rintro ⟨names, same, name, member, unknown⟩
        exact absurd (known name (Option.some.inj same ▸ member)) unknown

/-- After its warnings a lint run notes nothing but issues. -/
theorem trace_lint (parsed : Parsed) (names : Option (List String)) :
    ∃ further, (lint parsed names).trace = parsed.parseErrors ++ further ∧
      ∀ event ∈ further, (Note.event event).level = .debug := by
  cases resolved : Check.resolve names with
  | error unknown =>
    rw [lint_of_refused parsed names unknown resolved]
    exact ⟨[], (List.append_nil _).symm, by simp⟩
  | ok checks =>
    rw [lint_of_resolved parsed names checks resolved, List.append_assoc]
    refine ⟨_, rfl, ?_⟩
    intro event noted
    rcases List.mem_append.mp noted with suppressed | reported
    · obtain ⟨issue, -, rfl⟩ := List.mem_map.mp suppressed
      rfl
    · obtain ⟨issue, -, rfl⟩ := List.mem_map.mp reported
      rfl

/-- Names that are all registered resolve to the checks of the distinct ones, in order of first
mention. -/
theorem Check.resolve_of_all_registered (names : Option (List String))
    (known : ∀ asked, names = some asked → ∀ name ∈ asked, name ∈ registeredNames) :
    ∃ checks, resolve names = .ok checks ∧ (∀ check ∈ checks, check ∈ registered) ∧
      (names = none → checks = registered) ∧
      ∀ asked, names = some asked → checks.map Check.name = asked.eraseDups := by
  cases names with
  | none => exact ⟨registered, rfl, fun check member => member, fun _ => rfl, by simp⟩
  | some asked =>
    have resolved := resolveFrom_registered [] asked (by simp) (known asked rfl)
    refine ⟨_, resolved, mem_registered_of_resolve (some asked) _ resolved, by simp, ?_⟩
    intro other same
    obtain rfl := Option.some.inj same
    exact map_name_filterMap_lookup? _ fun name member =>
      known asked rfl name (List.mem_eraseDups.mp member)

/-- The outcome of a lint run and the trace that it leaves.

The trace begins with a warning for each node that no rule accepts, in preorder and wherever it
stands, if the reader met an error at all; it holds no further warnings. The run fails if and only
if some name is not registered. It then refuses the first such name and offers the registered ones
in ascending order, and the warnings are the whole trace. Otherwise it asks the checks of the
distinct names in the order of first mention, all checks if there is no list. Its trace goes on with
the issues that the walk suppresses and ends with those that it reports, each once and in order.
Repeating names changes nothing of all this. -/
theorem lint_outcome_and_trace (parsed : Parsed) :
    let warnings :=
      if parsed.hasError then (ConcreteTree.errorNodes parsed.tree).map parsed.parseError else []
    (∀ names, ∃ further, (lint parsed names).trace = warnings ++ further ∧
      (∀ event ∈ warnings, (Note.event event).level = .warning) ∧
      ∀ event ∈ further, (Note.event event).level = .debug) ∧
    (∀ names, (∃ unknown, (lint parsed names).outcome = .error unknown) ↔
      ∃ asked, names = some asked ∧ ∃ name ∈ asked, name ∉ Check.registeredNames) ∧
    (∀ front name back, (∀ earlier ∈ front, earlier ∈ Check.registeredNames) →
      name ∉ Check.registeredNames →
        ∃ available, available.Perm Check.registeredNames ∧ available.Pairwise (· ≤ ·) ∧
          lint parsed (some (front ++ name :: back)) =
            ⟨warnings, .error ⟨name, available⟩⟩) ∧
    (∀ names,
      (∀ asked, names = some asked → ∀ name ∈ asked, name ∈ Check.registeredNames) →
      ∃ checks, Check.resolve names = .ok checks ∧
        (∀ check ∈ checks, check ∈ Check.registered) ∧
        (names = none → checks = Check.registered) ∧
        (∀ asked, names = some asked → checks.map Check.name = asked.eraseDups) ∧
        let walk := Walk.run checks parsed.root
        lint parsed names =
          ⟨warnings ++ walk.suppressed.map .duplicate ++ walk.issues.map .finding,
            .ok walk.issues⟩) ∧
    ∀ asked, lint parsed (some asked.eraseDups) = lint parsed (some asked) := by
  intro warnings
  have warned : parsed.parseErrors = warnings := Parsed.parseErrors_eq parsed
  refine ⟨?_, outcome_lint_eq_error_iff parsed, ?_, ?_, ?_⟩
  · intro names
    obtain ⟨further, trace, debug⟩ := trace_lint parsed names
    rw [warned] at trace
    exact ⟨further, trace, warned ▸ Parsed.level_of_mem_parseErrors parsed, debug⟩
  · intro front name back known unknown
    obtain ⟨same, ascending⟩ := Check.mergeSort_registeredNames
    refine ⟨_, same, ascending, ?_⟩
    rw [lint_of_refused parsed _ _ (Check.resolve_of_unregistered front name back known unknown),
      warned]
  · intro names known
    obtain ⟨checks, resolved, registered, all, distinct⟩ :=
      Check.resolve_of_all_registered names known
    refine ⟨checks, resolved, registered, all, distinct, ?_⟩
    rw [lint_of_resolved parsed names checks resolved, warned]
  · intro asked
    rw [lint, lint, Check.resolve_eraseDups]

/-- A class body with two semicolons in one place. Text that no rule accepts stands in a comment and
at the end, and the last byte is no text at all. -/
def damagedBody : Parsed :=
  let node (type : String) (column start : Nat) (children : List ConcreteTree) : ConcreteTree :=
    .node ⟨type, ⟨0, column⟩, start, start + 1, false⟩ children
  { tree := node "class_body" 0 0
      [node "\x7b" 0 0 [], node "comment" 1 1 [node "ERROR" 1 1 []], node ";" 2 2 [],
        node ";" 2 3 [], node "ERROR" 4 4 []]
    source := [0x7B, 0x3F, 0x3B, 0x3B, 0x80]
    hasError := true }

/-- The warnings of the damaged body are given even if a check is misspelt. If the check is named
twice, the two semicolons are found once and suppressed once, as if it were named once. -/
theorem lint_damagedBody :
    let name := MemberSemicolon.name
    let warnings : List TraceEvent :=
      [.parseError ⟨0, 1⟩ ['?'], .parseError ⟨0, 4⟩ ['\uFFFD']]
    let issue : Issue := ⟨"unnecessary.semicolon", 1, 3, "Unnecessary semicolon."⟩
    name ∈ Check.registeredNames ∧ "Misspelt" ∉ Check.registeredNames ∧
    (∃ available, available.Perm Check.registeredNames ∧ available.Pairwise (· ≤ ·) ∧
      lint damagedBody (some [name, "Misspelt", name]) =
        ⟨warnings, .error ⟨"Misspelt", available⟩⟩) ∧
    lint damagedBody (some [name, name]) =
      ⟨warnings ++ [.duplicate issue] ++ [.finding issue], .ok [issue]⟩ := by
  intro name warnings issue
  obtain ⟨-, -, refused, resolved, -⟩ := lint_outcome_and_trace damagedBody
  have listed : (if damagedBody.hasError then
      (ConcreteTree.errorNodes damagedBody.tree).map damagedBody.parseError else []) =
        warnings := by
    decide
  have known : name ∈ Check.registeredNames := by decide
  have unknown : "Misspelt" ∉ Check.registeredNames := by decide
  simp only [listed] at refused resolved
  refine ⟨known, unknown, refused [name] "Misspelt" [name] (by simpa using known) unknown, ?_⟩
  obtain ⟨checks, answer, -, -, -, run⟩ := resolved (some [name, name]) (by
    intro asked same
    obtain rfl := Option.some.inj same
    simpa using known)
  have once : Check.resolve (some [name, name]) = .ok Check.registered := rfl
  obtain rfl := Except.ok.inj (answer.symm.trans once)
  have converted : damagedBody.root = .node ⟨.objBlock, "class_body", 1, 1⟩
      [.node ⟨.lcurly, "\x7b", 1, 1⟩ [], .node ⟨.semi, ";", 1, 3⟩ [],
        .node ⟨.semi, ";", 1, 3⟩ [], .node ⟨.other, "ERROR", 1, 5⟩ []] :=
    SyntaxTree.ofConcrete_eq damagedBody.tree
  have raised : Walk.raised Check.registered damagedBody.root = [issue, issue] := by
    rw [Walk.raised_eq_flatMap, converted]
    cbv
  have reported : Walk.firsts [issue, issue] = [issue] := by decide
  have suppressed : Walk.repeats [issue, issue] = [issue] := by decide
  have walked : Walk.run Check.registered damagedBody.root = ⟨[issue], [issue]⟩ := by
    rw [Walk.run_eq, raised, reported, suppressed, List.mergeSort_singleton]
  rw [run, walked]
  rfl

end StraySemicolon

import Mathlib.Data.List.Permutation
import StraySemicolon.Proofs.Walker

/-!
# Which checks are asked, and in which order

A walk asks its checks node by node. Two lists of checks therefore interleave at every node, and an
issue of one list can be suppressed because of an issue of the other one that was raised at another
node and with another message. All the same, what is found does not depend on the interleaving: the
keys of a report are the keys that are raised, and these are a union over the checks.

Which message stands for a key does depend on the order of the checks. It is settled once a check is
in the list: asking it again only raises keys that are known by then. `Walk.Repeating` relates what
is raised with and without the further questions. One issue more keeps this relation, so whole walks
have it.
-/

namespace StraySemicolon

/-- Where an issue is. -/
def Issue.position (issue : Issue) : Int × Int :=
  (issue.line, issue.col)

namespace Walk

/-! ## What is raised by combined checks -/

theorem raisedAt_append (checks others : List Check) (place : Place) :
    raisedAt (checks ++ others) place = raisedAt checks place ++ raisedAt others place := by
  rw [raisedAt, List.filter_append, List.flatMap_append]
  rfl

/-- Two lists of checks together raise what either of them raises. -/
theorem mem_raised_append (checks others : List Check) (tree : SyntaxTree) (issue : Issue) :
    issue ∈ raised (checks ++ others) tree ↔
      issue ∈ raised checks tree ∨ issue ∈ raised others tree := by
  simp only [raised_eq_flatMap, List.mem_flatMap, raisedAt_append, List.mem_append]
  constructor
  · rintro ⟨place, listed, first | second⟩
    · exact Or.inl ⟨place, listed, first⟩
    · exact Or.inr ⟨place, listed, second⟩
  · rintro (⟨place, listed, first⟩ | ⟨place, listed, second⟩)
    · exact ⟨place, listed, Or.inl first⟩
    · exact ⟨place, listed, Or.inr second⟩

/-- The order of the checks does not matter for what is raised, only for when. -/
theorem raised_perm (checks others : List Check) (same : checks.Perm others) (tree : SyntaxTree) :
    (raised checks tree).Perm (raised others tree) := by
  rw [raised_eq_flatMap, raised_eq_flatMap]
  apply List.Perm.flatMap_left
  intro place _
  exact (same.filter _).flatMap_right _

/-! ## The keys of a report -/

theorem mem_keys_firsts (raised : List Issue) (key : String × Int × Int) :
    key ∈ (firsts raised).map Issue.key ↔ key ∈ raised.map Issue.key := by
  have sought (issues : List Issue) : key ∈ issues.map Issue.key ↔
      (issues.find? fun issue => issue.key == key).isSome = true := by
    simp [List.find?_isSome]
  rw [sought, sought, find?_firsts]

/-- A report has exactly the keys that are raised. -/
theorem mem_keys_run (checks : List Check) (tree : SyntaxTree) (key : String × Int × Int) :
    key ∈ (run checks tree).issues.map Issue.key ↔
      key ∈ (raised checks tree).map Issue.key := by
  rw [run_eq, ((List.mergeSort_perm _ _).map Issue.key).mem_iff, mem_keys_firsts]

theorem keys_run_nodup (checks : List Check) (tree : SyntaxTree) :
    ((run checks tree).issues.map Issue.key).Nodup := by
  rw [run_eq]
  exact ((List.mergeSort_perm _ _).map Issue.key).nodup_iff.mpr (firsts_keys_nodup _)

/-- Reports on the same keys name the same positions, one after the other: both are sorted. -/
theorem positions_eq_of_keys_perm (checks others : List Check) (tree : SyntaxTree)
    (same : ((run checks tree).issues.map Issue.key).Perm
      ((run others tree).issues.map Issue.key)) :
    (run checks tree).issues.map Issue.position = (run others tree).issues.map Issue.position := by
  have sorted (checks : List Check) : ((run checks tree).issues.map Issue.position).Pairwise
      fun first second => first.1 < second.1 ∨ first.1 = second.1 ∧ first.2 ≤ second.2 := by
    rw [List.pairwise_map, run_eq]
    exact (reports_of_sorted_firsts (raised checks tree)).sorted
  have positions := same.map Prod.snd
  rw [List.map_map, List.map_map] at positions
  refine List.Perm.eq_of_pairwise ?_ (sorted checks) (sorted others) positions
  rintro ⟨line, col⟩ ⟨otherLine, otherCol⟩ _ _ before after
  simp only [Prod.mk.injEq] at *
  omega

/-! ## Asking again -/

/-- The second of two lists of raised issues is the first one with further issues in between. Each
of these has the key of an issue that is raised before it. -/
inductive Repeating : List Issue → List Issue → Prop where
  | nil : Repeating [] []
  | shared {raised more : List Issue} (issue : Issue) (before : Repeating raised more) :
      Repeating (raised ++ [issue]) (more ++ [issue])
  | again {raised more : List Issue} (issue : Issue) (before : Repeating raised more)
      (known : issue.key ∈ more.map Issue.key) : Repeating raised (more ++ [issue])

namespace Repeating

variable {raised more : List Issue}

theorem mem_keys_iff (repeating : Repeating raised more) (key : String × Int × Int) :
    key ∈ more.map Issue.key ↔ key ∈ raised.map Issue.key := by
  induction repeating with
  | nil => rfl
  | shared issue before inductionHypothesis => simp [inductionHypothesis]
  | again issue before known inductionHypothesis =>
    rw [List.map_append, List.mem_append, inductionHypothesis, List.map_singleton,
      List.mem_singleton]
    constructor
    · rintro (old | rfl)
      · exact old
      · exact (inductionHypothesis).mp known
    · exact Or.inl

theorem any_key_eq (repeating : Repeating raised more) (key : String × Int × Int) :
    (more.any fun earlier => earlier.key == key) =
      raised.any fun earlier => earlier.key == key := by
  have same := repeating.mem_keys_iff key
  rw [Bool.eq_iff_iff]
  simpa [List.any_eq_true] using same

theorem any_key_of_mem (issue : Issue) (known : issue.key ∈ more.map Issue.key) :
    (more.any fun earlier => earlier.key == issue.key) = true := by
  simpa [List.any_eq_true] using known

/-- Asking again changes nothing of what is kept. -/
theorem firsts_eq (repeating : Repeating raised more) : firsts more = firsts raised := by
  induction repeating with
  | nil => rfl
  | shared issue before inductionHypothesis =>
    rw [firsts_append_singleton, firsts_append_singleton, inductionHypothesis, before.any_key_eq]
  | again issue before known inductionHypothesis =>
    rw [firsts_append_singleton, any_key_of_mem issue known, if_pos rfl, List.append_nil,
      inductionHypothesis]

/-- Asking again only adds to what is suppressed. -/
theorem repeats_sublist (repeating : Repeating raised more) :
    (repeats raised).Sublist (repeats more) := by
  induction repeating with
  | nil => exact List.Sublist.refl _
  | shared issue before inductionHypothesis =>
    rw [repeats_append_singleton, repeats_append_singleton, before.any_key_eq]
    exact inductionHypothesis.append (List.Sublist.refl _)
  | again issue before known inductionHypothesis =>
    rw [repeats_append_singleton]
    exact inductionHypothesis.trans (List.sublist_append_left _ _)

theorem append_shared (repeating : Repeating raised more) (issues : List Issue) :
    Repeating (raised ++ issues) (more ++ issues) := by
  induction issues generalizing raised more with
  | nil => simpa using repeating
  | cons issue rest inductionHypothesis =>
    simpa using inductionHypothesis (repeating.shared issue)

theorem append_again (repeating : Repeating raised more) (issues : List Issue)
    (known : ∀ issue ∈ issues, issue.key ∈ more.map Issue.key) :
    Repeating raised (more ++ issues) := by
  induction issues generalizing more with
  | nil => simpa using repeating
  | cons issue rest inductionHypothesis =>
    have here := known issue List.mem_cons_self
    have later := inductionHypothesis (repeating.again issue here) fun other member => by
      rw [List.map_append]
      exact List.mem_append_left _ (known other (List.mem_cons_of_mem _ member))
    simpa using later

end Repeating

/-- Checks that are asked anyway raise nothing new at a place when they are asked again. -/
theorem raisedAt_subset (checks others : List Check)
    (contained : ∀ check ∈ others, check ∈ checks) (place : Place) :
    ∀ issue ∈ raisedAt others place, issue ∈ raisedAt checks place := by
  intro issue raisedAgain
  obtain ⟨check, asked, found⟩ := List.mem_flatMap.mp raisedAgain
  obtain ⟨listed, registered⟩ := List.mem_filter.mp asked
  exact List.mem_flatMap.mpr
    ⟨check, List.mem_filter.mpr ⟨contained check listed, registered⟩, found⟩

/-- Along a whole walk, asking checks again only repeats keys. The induction takes the places of the
walk one by one: at each place the further questions come last, and their answers have just been
given. -/
theorem repeating_raised (checks others : List Check)
    (contained : ∀ check ∈ others, check ∈ checks)
    (tree : SyntaxTree) : Repeating (raised checks tree) (raised (checks ++ others) tree) := by
  rw [raised_eq_flatMap, raised_eq_flatMap]
  induction (Cursor.top tree).walk using List.reverseRecOn with
  | nil => exact .nil
  | append_singleton places place inductionHypothesis =>
    rw [List.flatMap_append, List.flatMap_append, List.flatMap_singleton, List.flatMap_singleton,
      raisedAt_append, ← List.append_assoc]
    apply (inductionHypothesis.append_shared (raisedAt checks place)).append_again
    intro issue raisedAgain
    rw [List.map_append]
    exact List.mem_append_right _
      (List.mem_map_of_mem (raisedAt_subset checks others contained place issue raisedAgain))

end Walk

/-- How reports depend on the list of checks. Two lists together find what either of them finds. The
order of a list does not matter for what is found: it finds the same keys, each once, so as many
issues, at the same positions. And checks that are already in the list can be asked once more: the
report stays the same to the letter, and only more issues are suppressed. -/
theorem run_of_combined_checks (tree : SyntaxTree) :
    (∀ (checks others : List Check) (key : String × Int × Int),
      key ∈ (Walk.run (checks ++ others) tree).issues.map Issue.key ↔
        key ∈ (Walk.run checks tree).issues.map Issue.key ∨
          key ∈ (Walk.run others tree).issues.map Issue.key) ∧
    (∀ checks others : List Check, checks.Perm others →
      (∀ key, key ∈ (Walk.run checks tree).issues.map Issue.key ↔
        key ∈ (Walk.run others tree).issues.map Issue.key) ∧
      ((Walk.run checks tree).issues.map Issue.key).Nodup ∧
      ((Walk.run others tree).issues.map Issue.key).Nodup ∧
      (Walk.run checks tree).issues.length = (Walk.run others tree).issues.length ∧
      (Walk.run checks tree).issues.map Issue.position =
        (Walk.run others tree).issues.map Issue.position) ∧
    ∀ checks others : List Check, (∀ check ∈ others, check ∈ checks) →
      (Walk.run (checks ++ others) tree).issues = (Walk.run checks tree).issues ∧
      (Walk.run checks tree).suppressed.Sublist (Walk.run (checks ++ others) tree).suppressed := by
  refine ⟨?_, ?_, ?_⟩
  · intro checks others key
    rw [Walk.mem_keys_run, Walk.mem_keys_run, Walk.mem_keys_run]
    simp only [List.mem_map, Walk.mem_raised_append, or_and_right, exists_or]
  · intro checks others same
    have keys (key : String × Int × Int) : key ∈ (Walk.run checks tree).issues.map Issue.key ↔
        key ∈ (Walk.run others tree).issues.map Issue.key := by
      rw [Walk.mem_keys_run, Walk.mem_keys_run]
      exact ((Walk.raised_perm checks others same tree).map Issue.key).mem_iff
    have distinct := Walk.keys_run_nodup checks tree
    have otherDistinct := Walk.keys_run_nodup others tree
    have permuted := (List.perm_ext_iff_of_nodup distinct otherDistinct).mpr keys
    refine ⟨keys, distinct, otherDistinct, ?_,
      Walk.positions_eq_of_keys_perm checks others tree permuted⟩
    simpa using permuted.length_eq
  · intro checks others contained
    have repeating := Walk.repeating_raised checks others contained tree
    rw [Walk.run_eq, Walk.run_eq]
    refine ⟨?_, repeating.repeats_sublist⟩
    rw [repeating.firsts_eq]

/-- A check that finds the same in every type declaration, with a message of its own. -/
def declarationCheck (message : String) : Check where
  name := message
  kinds := [.classDef]
  visit place := [.atNode "declaration" place.label message]

/-- The syntax tree of a class whose body begins where the class does and holds another class. -/
def nestedClass : SyntaxTree :=
  .node ⟨.classDef, "class_declaration", 1, 1⟩
    [.node ⟨.objBlock, "class_body", 1, 1⟩
      [.node ⟨.classDef, "class_declaration", 2, 3⟩ []]]

/-- Two checks that find the same under two messages. In either order they report the same two
positions, though with different messages. Asking the first one again changes nothing but what is
suppressed. -/
theorem run_of_combined_declaration_checks :
    let first := declarationCheck "first"
    let second := declarationCheck "second"
    (Walk.run [first, second] nestedClass).issues.map Issue.position =
      (Walk.run [second, first] nestedClass).issues.map Issue.position ∧
    (Walk.run [first, second] nestedClass).issues ≠
      (Walk.run [second, first] nestedClass).issues ∧
    (Walk.run ([first, second] ++ [first]) nestedClass).issues =
      (Walk.run [first, second] nestedClass).issues ∧
    (Walk.run ([first, second] ++ [first]) nestedClass).suppressed.map Issue.message =
      ["second", "first", "second", "first"] := by
  intro first second
  obtain ⟨-, permuted, again⟩ := run_of_combined_checks nestedClass
  obtain ⟨-, -, -, -, positions⟩ :=
    permuted [first, second] [second, first] (.swap second first [])
  refine ⟨positions, ?_, (again [first, second] [first] (by simp)).1, ?_⟩
  · have messages : (Walk.run [first, second] nestedClass).issues.map Issue.message =
        ["first", "first"] := by
      rw [Walk.run_eq, Walk.raised_eq_flatMap]
      cbv
    have swapped : (Walk.run [second, first] nestedClass).issues.map Issue.message =
        ["second", "second"] := by
      rw [Walk.run_eq, Walk.raised_eq_flatMap]
      cbv
    intro same
    rw [same, swapped] at messages
    simp at messages
  · rw [Walk.run_eq, Walk.raised_eq_flatMap]
    cbv

end StraySemicolon

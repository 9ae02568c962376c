import StraySemicolon.Proofs.Insertion
import StraySemicolon.Proofs.Repair

/-!
# One semicolon more

A semicolon that is put into the body of a type changes at most one verdict, namely that of the
semicolon after it. This one had been judged by the sibling that now stands before the new
semicolon, in the same surroundings, so the new semicolon gets just the verdict that the displaced
one had. The displaced one follows a semicolon now, and is reported. Between them, exactly one
report is added.

All other nodes keep the sibling before them, and what is read of that sibling: only the body has
another last child, and of a body the last child is not read.
-/

namespace StraySemicolon

/-- In a list without repetition, two tests that differ at one item only differ by one in their
counts. -/
theorem List.countP_eq_succ {α : Type} (list : List α) (test other : α → Bool) (item : α)
    (distinct : list.Nodup) (member : item ∈ list) (passes : test item = true)
    (fails : other item = false)
    (elsewhere : ∀ entry ∈ list, entry ≠ item → test entry = other entry) :
    list.countP test = list.countP other + 1 := by
  obtain ⟨before, after, rfl⟩ := List.append_of_mem member
  rw [List.nodup_append', List.nodup_cons] at distinct
  obtain ⟨-, ⟨notAfter, -⟩, apart⟩ := distinct
  have sameBefore : before.countP test = before.countP other := by
    apply List.countP_congr
    intro entry inside
    have different : entry ≠ item := by
      rintro rfl
      exact apart inside List.mem_cons_self
    rw [elsewhere entry (List.mem_append_left _ inside) different]
  have sameAfter : after.countP test = after.countP other := by
    apply List.countP_congr
    intro entry inside
    have different : entry ≠ item := by
      rintro rfl
      exact notAfter inside
    rw [elsewhere entry (List.mem_append_right _ (List.mem_cons_of_mem _ inside)) different]
  rw [List.countP_append, List.countP_append, List.countP_cons_of_pos passes,
    List.countP_cons_of_neg (by simp [fails]), sameBefore, sameAfter]
  omega

namespace MemberSemicolon

/-- The number of reported nodes of a tree. -/
def reportCount (tree : SyntaxTree) : Nat :=
  (Cursor.top tree).walk.countP reports

/-! ## Verdicts -/

/-- A verdict depends on the kind, the enclosing kinds and what there is to terminate. -/
theorem reports_congr (place other : Place) (kind : place.kind = other.kind)
    (enclosing : place.enclosingKinds = other.enclosingKinds)
    (redundant : redundantAfter other.enclosingKinds (place.previous.map sight) =
      redundantAfter other.enclosingKinds (other.previous.map sight)) :
    reports place = reports other := by
  rw [Bool.eq_iff_iff, reports_iff, reports_iff, kind, enclosing, redundant]

/-- After a semicolon of a body, a semicolon is reported. -/
theorem reports_after_semicolon (semicolon next : Place) (onward : semicolon.next = some next)
    (inBody : semicolon.enclosingKinds.head? = some .objBlock)
    (isSemicolon : semicolon.kind = .semi)
    (nextIsSemicolon : next.kind = .semi) : reports next = true := by
  have backward := (Cursor.next_iff_previous semicolon next).mp onward
  rw [reports_iff, ← enclosingKinds_of_previous next semicolon backward, backward,
    Option.map_some]
  refine ⟨nextIsSemicolon, inBody, ?_⟩
  rw [sight, isSemicolon]
  rfl

section

variable (gone body : Place) (up : gone.parent = some body) (isBody : body.kind = .objBlock)
include up isBody

/-- Only a body loses a child. -/
theorem kept_beside (place : Place) (noBody : place.kind ≠ .objBlock) :
    ∀ child ∈ place.children, decide (child = gone) = false := by
  intro child below
  rw [decide_eq_false_iff_not]
  rintro rfl
  rw [Cursor.mem_children_iff, up] at below
  obtain rfl := Option.some.inj below
  exact noBody isBody

/-- When a child of a body is taken out, only the sibling after it can get another verdict. -/
theorem reports_without (place : Place) (different : place ≠ gone)
    (notNext : gone.next ≠ some place) :
    reports (gone.without place) = reports place := by
  apply reports_congr
  · exact kind_inPruned _ place
  · exact enclosingKinds_inPruned _ place
  · have stillBefore : (gone.without place).previous = place.previous.map gone.without := by
      apply Cursor.previous_inPruned _ place (decide_eq_false different)
      intro sibling before
      rw [decide_eq_false_iff_not]
      rintro rfl
      exact notNext ((Cursor.next_iff_previous sibling place).mpr before)
    rw [stillBefore]
    exact redundantAfter_inPruned _ (kept_beside gone body up isBody) _ _

/-- When a semicolon is taken out of a body, a semicolon after it gets its verdict. -/
theorem reports_without_next (next : Place) (onward : gone.next = some next)
    (isSemicolon : gone.kind = .semi) (nextIsSemicolon : next.kind = .semi) :
    reports (gone.without next) = reports gone := by
  have backward := (Cursor.next_iff_previous gone next).mp onward
  apply reports_congr
  · rw [isSemicolon, ← nextIsSemicolon]
    exact kind_inPruned _ next
  · rw [enclosingKinds_of_previous next gone backward]
    exact enclosingKinds_inPruned _ next
  · rw [Cursor.previous_without_next gone next onward]
    exact redundantAfter_inPruned _ (kept_beside gone body up isBody) _ _

end

/-- The same verdict on the same label is the same list of issues. -/
theorem visit_without (gone place : Place) (same : reports (gone.without place) = reports place) :
    visit (gone.without place) = visit place := by
  rw [visit, visit, same]
  congr 2
  exact congrArg (Issue.atNode issueKind · message) (Cursor.label_inPruned _ place)

/-! ## The extra semicolon -/

/-- A semicolon in a body, and a tree that has all places but this one. -/
structure IsExtra (tree : SyntaxTree) (extra : Place) : Prop where
  isSemicolon : extra.kind = .semi
  inBody : ∃ body : Place, extra.parent = some body ∧ body.kind = .objBlock
  others : (Cursor.top tree).walk =
    ((Cursor.top extra.tree).walk.filter fun place => decide (place ≠ extra)).map extra.without

namespace IsExtra

variable {tree : SyntaxTree} {extra : Place} (isExtra : IsExtra tree extra)
include isExtra

/-- The semicolon after the extra one had the verdict that the extra one has; all other verdicts are
as they were. -/
theorem verdict (place : Place) (different : place ≠ extra) :
    reports (extra.without place) =
      if extra.next = some place ∧ place.kind = .semi then reports extra else reports place := by
  obtain ⟨body, up, isBody⟩ := isExtra.inBody
  split
  case isTrue both =>
    exact reports_without_next extra body up isBody place both.1 isExtra.isSemicolon both.2
  case isFalse other =>
    by_cases onward : extra.next = some place
    · -- What is no semicolon is not reported anywhere.
      have noSemicolon : place.kind ≠ .semi := fun isSemicolon => other ⟨onward, isSemicolon⟩
      have silent (place : Place) (noSemicolon : place.kind ≠ .semi) : reports place = false := by
        rw [Bool.eq_false_iff]
        intro reported
        exact noSemicolon ((reports_iff place).mp reported).1
      rw [silent place noSemicolon, silent]
      rwa [Cursor.without, kind_inPruned]
    · exact reports_without extra body up isBody place different onward

/-- The semicolon after the extra one is reported. -/
theorem reports_next (next : Place) (onward : extra.next = some next)
    (isSemicolon : next.kind = .semi) :
    reports next = true := by
  obtain ⟨body, up, isBody⟩ := isExtra.inBody
  apply reports_after_semicolon extra next onward _ isExtra.isSemicolon isSemicolon
  rw [Place.enclosingKinds_of_parent extra body up, isBody, List.head?_cons]

theorem verdict_of_reported (reported : reports extra = true) (place : Place)
    (different : place ≠ extra) :
    reports (extra.without place) = reports place := by
  rw [isExtra.verdict place different]
  split
  case isTrue both => rw [reported, isExtra.reports_next place both.1 both.2]
  case isFalse => rfl

theorem verdict_of_noSemicolon
    (noSemicolon : ∀ next : Place, extra.next = some next → next.kind ≠ .semi)
    (place : Place) (different : place ≠ extra) :
    reports (extra.without place) = reports place := by
  rw [isExtra.verdict place different, if_neg]
  rintro ⟨onward, isSemicolon⟩
  exact noSemicolon place onward isSemicolon

/-! ## Counts -/

/-- The reports of the tree without the extra semicolon, counted in the other one. -/
theorem reportCount_eq :
    reportCount tree = (Cursor.top extra.tree).walk.countP
      fun place => reports (extra.without place) && decide (place ≠ extra) := by
  rw [reportCount, isExtra.others, List.countP_map, List.countP_filter]
  rfl

/-- If the extra semicolon is reported, it is one report more. -/
theorem count_of_reported (reported : reports extra = true) :
    reportCount extra.tree = reportCount tree + 1 := by
  rw [isExtra.reportCount_eq, reportCount]
  apply List.countP_eq_succ _ _ _ extra (Cursor.walk_nodup _) (Cursor.mem_walk_top extra) reported
  · simp
  · intro place _ different
    simp [isExtra.verdict_of_reported reported place different, different]

/-- If it is not, a semicolon after it was not reported before, is reported now, and is one report
more. -/
theorem count_of_displaced (silent : reports extra = false) (next : Place)
    (onward : extra.next = some next) (isSemicolon : next.kind = .semi) :
    reports (extra.without next) = false ∧ reports next = true ∧
      reportCount extra.tree = reportCount tree + 1 := by
  have reported := isExtra.reports_next next onward isSemicolon
  have different : next ≠ extra := by
    rintro rfl
    simp [silent] at reported
  have before : reports (extra.without next) = false := by
    rw [isExtra.verdict next different, if_pos ⟨onward, isSemicolon⟩, silent]
  refine ⟨before, reported, ?_⟩
  have listed : next ∈ (Cursor.top extra.tree).walk := by
    have moved := Cursor.follow_mem_walk extra.tree extra (Cursor.mem_walk_top extra) [.next]
    rwa [Cursor.follow, List.foldl_cons, List.foldl_nil, Cursor.move, Cursor.target, onward,
      Option.getD_some] at moved
  rw [isExtra.reportCount_eq, reportCount]
  apply List.countP_eq_succ _ _ _ next (Cursor.walk_nodup _) listed reported
  · simp [before]
  · intro place _ notNext
    by_cases same : place = extra
    · simp [same, silent]
    · have onwardElsewhere : ¬(extra.next = some place ∧ place.kind = .semi) := by
        rintro ⟨also, -⟩
        exact notNext (Option.some.inj (also.symm.trans onward))
      simp [isExtra.verdict place same, onwardElsewhere, same]

/-- If it is not and no semicolon comes after it, there is no report more. -/
theorem count_of_silent (silent : reports extra = false)
    (noSemicolon : ∀ next : Place, extra.next = some next → next.kind ≠ .semi) :
    reportCount extra.tree = reportCount tree := by
  rw [isExtra.reportCount_eq, reportCount]
  apply List.countP_congr
  intro place _
  by_cases same : place = extra
  · simp [same, silent]
  · simp [isExtra.verdict_of_noSemicolon noSemicolon place same, same]

/-- Next to a semicolon, an extra one is one report more. -/
theorem count_of_doubled
    (beside : (∃ next : Place, extra.next = some next ∧ next.kind = .semi) ∨
      ∃ previous : Place, extra.previous = some previous ∧ previous.kind = .semi) :
    reportCount extra.tree = reportCount tree + 1 := by
  cases verdict : reports extra with
  | true => exact isExtra.count_of_reported verdict
  | false =>
    rcases beside with ⟨next, onward, isSemicolon⟩ | ⟨previous, backward, isSemicolon⟩
    · exact (isExtra.count_of_displaced verdict next onward isSemicolon).2.2
    · obtain ⟨body, up, isBody⟩ := isExtra.inBody
      have inBody : previous.enclosingKinds.head? = some .objBlock := by
        rw [enclosingKinds_of_previous extra previous backward,
          Place.enclosingKinds_of_parent extra body up, isBody, List.head?_cons]
      have reported := reports_after_semicolon previous extra
        ((Cursor.next_iff_previous previous extra).mpr backward) inBody isSemicolon
          isExtra.isSemicolon
      rw [verdict] at reported
      cases reported

end IsExtra

/-- A semicolon that is put into a body is an extra one. -/
theorem isExtra_insertedAt (body : Place) (position : Nat) (node : SyntaxNode)
    (isBody : body.kind = .objBlock) (isSemicolon : node.kind = .semi) :
    IsExtra body.tree (body.insertedAt position (.node node [])) where
  isSemicolon := isSemicolon
  inBody := ⟨_, rfl, isBody⟩
  others := Cursor.walk_without body position node

/-- The semicolon of a body that is doubled stands next to the extra one. -/
theorem beside_insertedAt (body semicolon : Place) (position : Nat) (added : SyntaxTree)
    (below : semicolon ∈ body.children) (isSemicolon : semicolon.kind = .semi)
    (doubles : position = semicolon.index ∨ position = semicolon.index + 1) :
    (∃ next : Place, (body.insertedAt position added).next = some next ∧ next.kind = .semi) ∨
      ∃ previous : Place, (body.insertedAt position added).previous = some previous ∧
        previous.kind = .semi := by
  have found :=
    Cursor.child_at_index semicolon body ((Cursor.mem_children_iff semicolon body).mp below)
  have stored : body.focus.children[semicolon.index]? = some semicolon.focus := by
    rw [← Cursor.map_focus_children, List.getElem?_map, found, Option.map_some]
  rcases doubles with rfl | rfl
  · left
    have after := Cursor.map_focus_next_insertedAt body semicolon.index added
    rw [stored] at after
    obtain ⟨next, onward, same⟩ := Option.map_eq_some_iff.mp after
    refine ⟨next, onward, ?_⟩
    rw [← isSemicolon, Place.kind, Place.kind, Cursor.label, Cursor.label, same]
  · right
    have before := Cursor.map_focus_previous_insertedAt body (semicolon.index + 1) added
    rw [List.getLast?_take, if_neg (Nat.succ_ne_zero _), Nat.add_sub_cancel, stored,
      Option.some_or] at before
    obtain ⟨previous, backward, same⟩ := Option.map_eq_some_iff.mp before
    refine ⟨previous, backward, ?_⟩
    rw [← isSemicolon, Place.kind, Place.kind, Cursor.label, Cursor.label, same]

/-- The effect of one extra semicolon. It is put into a body of any tree, at any position among the
children. The places of the old tree are, in order, the other places of the new one, and no verdict
changes but that of the sibling after the extra semicolon. If the extra semicolon is reported, no
verdict changes at all, and there is one report more. If it is not, then a semicolon after it was
not reported, is reported now and is one report more; without a semicolon after it, no verdict
changes, and there is no report more. So a semicolon of a body that is doubled, by one before it or
one after it, is one report more. -/
theorem effect_of_extra_semicolon (body : Place) (position : Nat) (node : SyntaxNode)
    (isBody : body.kind = .objBlock) (isSemicolon : node.kind = .semi) :
    let extra : Place := body.insertedAt position (.node node [])
    let larger : Place := ⟨.node body.label (body.focus.children.take position ++
      .node node [] :: body.focus.children.drop position), body.above⟩
    let places := (Cursor.top extra.tree).walk
    (extra.parent = some larger ∧ extra.without larger = body ∧ extra ∈ places ∧
      (Cursor.top body.tree).walk =
        (places.filter fun place => decide (place ≠ extra)).map extra.without) ∧
    (∀ place ∈ places, place ≠ extra → extra.next ≠ some place →
      visit (extra.without place) = visit place) ∧
    (reports extra = true →
      (∀ place ∈ places, place ≠ extra → visit (extra.without place) = visit place) ∧
      reportCount extra.tree = reportCount body.tree + 1) ∧
    (reports extra = false → ∀ next : Place, extra.next = some next → next.kind = .semi →
      reports (extra.without next) = false ∧ reports next = true ∧
      reportCount extra.tree = reportCount body.tree + 1) ∧
    (reports extra = false →
      (∀ next : Place, extra.next = some next → next.kind ≠ .semi) →
      (∀ place ∈ places, place ≠ extra → visit (extra.without place) = visit place) ∧
      reportCount extra.tree = reportCount body.tree) ∧
    ∀ semicolon ∈ body.children, Place.kind semicolon = .semi →
      position = semicolon.index ∨ position = semicolon.index + 1 →
        reportCount extra.tree = reportCount body.tree + 1 := by
  intro extra larger places
  have isExtra : IsExtra body.tree extra := isExtra_insertedAt body position node isBody isSemicolon
  have up : extra.parent = some larger := by
    simp [extra, larger, Cursor.insertedAt, Cursor.parent]
  refine ⟨⟨up, ?_, Cursor.mem_walk_top extra, isExtra.others⟩, ?_, ?_, ?_, ?_, ?_⟩
  · exact Cursor.without_parent body larger position _ up
  · intro place _ different notNext
    apply visit_without
    rw [isExtra.verdict place different, if_neg (fun both => notNext both.1)]
  · intro reported
    refine ⟨?_, isExtra.count_of_reported reported⟩
    intro place _ different
    exact visit_without extra place (isExtra.verdict_of_reported reported place different)
  · exact isExtra.count_of_displaced
  · intro silent noSemicolon
    refine ⟨?_, isExtra.count_of_silent silent noSemicolon⟩
    intro place _ different
    exact visit_without extra place (isExtra.verdict_of_noSemicolon noSemicolon place different)
  · intro semicolon below doubled doubles
    exact isExtra.count_of_doubled
      (beside_insertedAt body semicolon position _ below doubled doubles)

/-- In the enum of the sample, a semicolon before the constant is silent, one before the semicolon
that ends the constants takes over from it, and one after the nested class is reported itself. -/
theorem effect_of_extra_semicolon_in_sample :
    let body : Place := (Cursor.top sample).follow [.first]
    let terminator : Place := body.follow [.first, .next, .next]
    let extra (position : Nat) : Place := body.insertedAt position (.node ⟨.semi, ";", 1, 1⟩ [])
    body.kind = .objBlock ∧ terminator ∈ body.children ∧ terminator.kind = .semi ∧
    (reports (extra 1) = false ∧ (extra 1).next.map Place.kind = some .enumConstantDef ∧
      reportCount (extra 1).tree = reportCount sample) ∧
    (reports (extra 2) = false ∧ (extra 2).next.map Place.kind = some .semi ∧
      (extra 2).next.map reports = some true ∧
      reportCount (extra 2).tree = reportCount sample + 1) ∧
    (reports (extra 4) = true ∧ reportCount (extra 4).tree = reportCount sample + 1) ∧
    reportCount (extra (terminator.index + 1)).tree = reportCount sample + 1 := by
  intro body terminator extra
  have isBody : body.kind = .objBlock := by decide
  have effect (position : Nat) :=
    effect_of_extra_semicolon body position ⟨.semi, ";", 1, 1⟩ isBody rfl
  have silent : reports (extra 1) = false := by decide
  have displacing : reports (extra 2) = false := by decide
  have reported : reports (extra 4) = true := by decide
  have noSemicolon : ∀ next : Place, (extra 1).next = some next → next.kind ≠ .semi := by
    intro next onward isSemicolon
    have kind : (extra 1).next.map Place.kind = some .enumConstantDef := by decide
    rw [onward, Option.map_some, isSemicolon] at kind
    cases kind
  obtain ⟨-, -, -, -, quiet, -⟩ := effect 1
  obtain ⟨-, -, -, displaced, -, -⟩ := effect 2
  obtain ⟨-, -, counted, -, -, -⟩ := effect 4
  obtain ⟨-, -, -, -, -, doubled⟩ := effect (terminator.index + 1)
  have onward : (extra 2).next = some ((extra 2).follow [.next]) := by decide
  obtain ⟨-, nowReported, oneMore⟩ := displaced displacing _ onward (by decide)
  have below : terminator ∈ body.children := by decide
  refine ⟨isBody, below, by decide, ⟨silent, by decide, (quiet silent noSemicolon).2⟩,
    ⟨displacing, by decide, ?_, oneMore⟩, ⟨reported, (counted reported).2⟩,
    doubled terminator below (by decide) (Or.inr rfl)⟩
  rw [onward, Option.map_some, nowReported]

end MemberSemicolon

end StraySemicolon

import StraySemicolon.Proofs.Cursor

/-!
# Pruned trees

Pruning takes places out of a tree, each with everything below it. Which places are taken out is
decided on the tree as it was: a place is asked with its old surroundings, however much of them has
gone.

`Cursor.pruned` is the tree that is left, and `Cursor.inPruned` says where a place of the old tree
is in the new one. The nodes of the new tree are, in order, the nodes of the old one that stay
(`walk_inPruned`). Their labels and enclosing labels stay, and so does the sibling before a node if
it is not taken out itself. What lies beside the places that are taken out, or around them, is left
as it was.
-/

namespace StraySemicolon.Cursor

variable {α : Type} (dropped : Cursor α → Bool)

mutual

/-- What is left of a tree with the given frames around it. Its root is not asked. -/
def pruneTree (above : List (Frame α)) : Tree α → Tree α
  | .node label children => .node label (pruneSiblings label above [] children)

/-- What is left of a list of siblings that continues a node whose earlier children are `before`. -/
def pruneSiblings (label : α) (above : List (Frame α)) (before : List (Tree α)) :
    List (Tree α) → List (Tree α)
  | [] => []
  | child :: after =>
    let later := pruneSiblings label above (child :: before) after
    if dropped ⟨child, ⟨label, before, after⟩ :: above⟩ then later
    else pruneTree (⟨label, before, after⟩ :: above) child :: later

end

/-- The tree that is left at a place when all dropped places below it are taken out, each with
everything below it. -/
def pruned (place : Cursor α) : Tree α :=
  pruneTree dropped place.above place.focus

/-- The trees that are left of some places, in order. -/
def remnants (places : List (Cursor α)) : List (Tree α) :=
  (places.filter fun place => !dropped place).map (pruned dropped)

/-- The frames that are left around a focus with the given frames. -/
def framesLeft (focus : Tree α) : List (Frame α) → List (Frame α)
  | [] => []
  | frame :: above =>
    let enclosing : Cursor α :=
      ⟨.node frame.label (frame.before.reverse ++ focus :: frame.after), above⟩
    ⟨frame.label, (remnants dropped (enclosing.children.take frame.before.length)).reverse,
      remnants dropped (enclosing.children.drop (frame.before.length + 1))⟩ ::
        framesLeft enclosing.focus above

/-- Where a place is in the pruned tree. -/
def inPruned (place : Cursor α) : Cursor α :=
  ⟨pruned dropped place, framesLeft dropped place.focus place.above⟩

/-- Whether neither the place nor any place around it is dropped. -/
def stays (place : Cursor α) : Bool :=
  (place :: place.ancestors).all fun other => !dropped other

/-! ## What is left -/

theorem pruneSiblings_eq (label : α) (above : List (Frame α)) (before trees : List (Tree α)) :
    pruneSiblings dropped label above before trees =
      remnants dropped (siblings label above before trees) := by
  induction trees generalizing before with
  | nil => simp [pruneSiblings, remnants, siblings]
  | cons child after inductionHypothesis =>
    rw [pruneSiblings, inductionHypothesis, siblings, remnants, remnants, List.filter_cons]
    cases dropped ⟨child, ⟨label, before, after⟩ :: above⟩ <;> rfl

/-- Of a place its label is left, with what is left of the children that are not dropped. -/
theorem pruned_eq (place : Cursor α) :
    pruned dropped place = .node place.label (remnants dropped place.children) := by
  obtain ⟨⟨label, trees⟩, above⟩ := place
  rw [pruned, pruneTree, pruneSiblings_eq]
  rfl

@[simp]
theorem label_inPruned (place : Cursor α) : (inPruned dropped place).label = place.label := by
  rw [label, inPruned, pruned_eq]
  rfl

@[simp]
theorem enclosing_inPruned (place : Cursor α) :
    (inPruned dropped place).enclosing = place.enclosing := by
  obtain ⟨focus, frames⟩ := place
  simp only [inPruned, enclosing]
  induction frames generalizing focus with
  | nil => rfl
  | cons frame above inductionHypothesis =>
    simp only [framesLeft, List.map_cons]
    rw [inductionHypothesis]

theorem remnants_nil : remnants dropped [] = [] := rfl

theorem remnants_append (first second : List (Cursor α)) :
    remnants dropped (first ++ second) = remnants dropped first ++ remnants dropped second := by
  simp [remnants]

theorem remnants_of_dropped (place : Cursor α) (later : List (Cursor α))
    (gone : dropped place = true) :
    remnants dropped (place :: later) = remnants dropped later := by
  simp [remnants, gone]

theorem remnants_of_kept (place : Cursor α) (later : List (Cursor α))
    (kept : dropped place = false) :
    remnants dropped (place :: later) = pruned dropped place :: remnants dropped later := by
  simp [remnants, kept]

/-- A child keeps what is left of the siblings to either side. -/
theorem inPruned_of_split (enclosing child : Cursor α) (before after : List (Cursor α))
    (split : enclosing.children = before ++ child :: after) :
    inPruned dropped child =
      ⟨pruned dropped child, ⟨enclosing.label, (remnants dropped before).reverse,
        remnants dropped after⟩ :: (inPruned dropped enclosing).above⟩ := by
  obtain ⟨up, index⟩ :=
    parent_and_index_of_child enclosing child before.length (by simp [split])
  obtain ⟨focus, frame, above, rfl, rfl⟩ := eq_of_parent child enclosing up
  have count : frame.before.length = before.length := index
  have past : before.drop (before.length + 1) = [] := by simp
  rw [inPruned, framesLeft, count, split, List.take_left, List.drop_append, past]
  simp [inPruned, label, Tree.label]

/-- From any child on, what is left of the children stands where the children go that are not
dropped. -/
theorem siblings_remnants (place : Cursor α) (before after : List (Cursor α))
    (split : place.children = before ++ after) :
    siblings place.label (inPruned dropped place).above (remnants dropped before).reverse
        (remnants dropped after) =
      (after.filter fun child => !dropped child).map (inPruned dropped) := by
  induction after generalizing before with
  | nil => rfl
  | cons child rest inductionHypothesis =>
    have later := inductionHypothesis (before ++ [child]) (by simp [split])
    rw [remnants_append] at later
    cases gone : dropped child with
    | true =>
      rw [remnants_of_dropped dropped child [] gone, remnants_nil, List.append_nil] at later
      rw [remnants_of_dropped dropped child rest gone, later,
        List.filter_cons_of_neg (by simp [gone])]
    | false =>
      rw [remnants_of_kept dropped child [] gone, List.reverse_append] at later
      rw [remnants_of_kept dropped child rest gone, List.filter_cons_of_pos (by simp [gone]),
        List.map_cons, ← later, inPruned_of_split dropped place child before rest split]
      rfl

/-- The children of a place in the pruned tree are those that are not dropped. -/
theorem children_inPruned (place : Cursor α) :
    (inPruned dropped place).children =
      (place.children.filter fun child => !dropped child).map (inPruned dropped) := by
  have below : (inPruned dropped place).focus.children = remnants dropped place.children := by
    rw [inPruned, pruned_eq]
    rfl
  rw [children, label_inPruned, below]
  exact siblings_remnants dropped place [] place.children rfl

theorem last_inPruned (place : Cursor α) :
    (inPruned dropped place).last =
      (place.children.filter fun child => !dropped child).getLast?.map (inPruned dropped) := by
  rw [← getLast?_children, children_inPruned, List.getLast?_map]

/-- Before a child that is not dropped stands the nearest earlier one that is not dropped. -/
theorem previous_inPruned_of_split (enclosing child : Cursor α) (before after : List (Cursor α))
    (split : enclosing.children = before ++ child :: after) (kept : dropped child = false) :
    (inPruned dropped child).previous =
      (before.filter fun sibling => !dropped sibling).getLast?.map (inPruned dropped) := by
  have left : (inPruned dropped enclosing).children =
      (before.filter fun sibling => !dropped sibling).map (inPruned dropped) ++
        inPruned dropped child ::
          (after.filter fun sibling => !dropped sibling).map (inPruned dropped) := by
    rw [children_inPruned, split, List.filter_append, List.filter_cons_of_pos (by simp [kept]),
      List.map_append, List.map_cons]
  rw [(previous_of_split _ _ _ _ left).2, List.getLast?_map]

/-- If neither a place nor the sibling before it is dropped, the sibling still stands before it. -/
theorem previous_inPruned (place : Cursor α) (kept : dropped place = false)
    (keptBefore : ∀ sibling, place.previous = some sibling → dropped sibling = false) :
    (inPruned dropped place).previous = place.previous.map (inPruned dropped) := by
  cases up : place.parent with
  | none =>
    rw [eq_top_of_parent_none place up]
    rfl
  | some enclosing =>
    obtain ⟨before, after, split⟩ :=
      List.append_of_mem ((mem_children_iff place enclosing).mpr up)
    obtain ⟨-, nearest⟩ := previous_of_split enclosing place before after split
    rw [previous_inPruned_of_split dropped enclosing place before after split kept, nearest]
    rcases List.eq_nil_or_concat before with rfl | ⟨earlier, sibling, rfl⟩
    · rfl
    · rw [List.concat_eq_append, List.getLast?_concat] at nearest
      have keptSibling := keptBefore sibling nearest
      simp [keptSibling]

/-! ## The places that stay -/

theorem stays_of_parent (place enclosing : Cursor α) (up : place.parent = some enclosing) :
    stays dropped place = (!dropped place && stays dropped enclosing) := by
  rw [stays, stays, ancestors_of_parent place enclosing up, List.all_cons]

theorem kept_of_stays (place : Cursor α) (staying : stays dropped place = true) :
    dropped place = false := by
  rw [stays, List.all_cons, Bool.and_eq_true] at staying
  simpa using staying.1

/-- If a place stays, the sibling before it stays unless it is dropped itself. -/
theorem stays_of_previous (place sibling : Cursor α) (before : place.previous = some sibling)
    (staying : stays dropped place = true) (kept : dropped sibling = false) :
    stays dropped sibling = true := by
  obtain ⟨enclosing, up, siblingUp⟩ := parent_of_previous place sibling before
  rw [stays_of_parent dropped place enclosing up, Bool.and_eq_true] at staying
  rw [stays_of_parent dropped sibling enclosing siblingUp, kept, staying.2]
  rfl

/-- Nothing at or below a dropped place stays. -/
theorem not_stays_of_dropped (start : Cursor α) (gone : dropped start = true) :
    ∀ place ∈ start.walk, stays dropped place = false := by
  apply walk_invariant
  · intro place goes child below
    rw [stays_of_parent dropped child place ((mem_children_iff child place).mp below), goes,
      Bool.and_false]
  · simp [stays, gone]

/-- If the walk from every child that is not dropped comes down to the places that stay, so do all
the walks together: a child that is dropped has nothing below it that stays. -/
theorem flatMap_walk_inPruned (children : List (Cursor α))
    (each : ∀ child ∈ children, dropped child = false →
      (inPruned dropped child).walk = (child.walk.filter (stays dropped)).map (inPruned dropped)) :
    ((children.filter fun child => !dropped child).map (inPruned dropped)).flatMap walk =
      ((children.flatMap walk).filter (stays dropped)).map (inPruned dropped) := by
  induction children with
  | nil => rfl
  | cons child rest inductionHypothesis =>
    have later := inductionHypothesis fun other member => each other (List.mem_cons_of_mem _ member)
    rw [List.flatMap_cons, List.filter_append, List.map_append, ← later]
    cases gone : dropped child with
    | true =>
      have nothing : child.walk.filter (stays dropped) = [] := by
        rw [List.filter_eq_nil_iff]
        intro other member
        simp [not_stays_of_dropped dropped child gone other member]
      rw [List.filter_cons_of_neg (by simp [gone]), nothing]
      rfl
    | false =>
      rw [List.filter_cons_of_pos (by simp [gone]), List.map_cons, List.flatMap_cons,
        each child List.mem_cons_self gone]

/-- The places at or below one that stays are, in the pruned tree, those that stay, in their
order. -/
theorem walk_inPruned (place : Cursor α) (staying : stays dropped place = true) :
    (inPruned dropped place).walk = (place.walk.filter (stays dropped)).map (inPruned dropped) := by
  induction place using children_induction with
  | step place inductionHypothesis =>
    rw [walk_eq, walk_eq place, List.filter_cons_of_pos staying, List.map_cons, children_inPruned,
      flatMap_walk_inPruned]
    intro child below kept
    apply inductionHypothesis child below
    rw [stays_of_parent dropped child place ((mem_children_iff child place).mp below),
      kept, staying]
    rfl

/-! ## What pruning leaves alone -/

/-- A place that is not dropped lies, in the pruned tree, in what its parent has become. -/
theorem parent_inPruned (place enclosing : Cursor α) (up : place.parent = some enclosing)
    (kept : dropped place = false) :
    (inPruned dropped place).parent = some (inPruned dropped enclosing) := by
  rw [← mem_children_iff, children_inPruned]
  apply List.mem_map_of_mem
  simp [List.mem_filter, (mem_children_iff place enclosing).mpr up, kept]

/-- A place that stays goes to a place of the pruned tree. -/
theorem tree_inPruned (place : Cursor α) (staying : stays dropped place = true) :
    (inPruned dropped place).tree = pruned dropped (top place.tree) := by
  induction place using parent_induction with
  | root place root =>
    rw [eq_top_of_parent_none place root]
    rfl
  | step place enclosing up inductionHypothesis =>
    rw [stays_of_parent dropped place enclosing up, Bool.and_eq_true, Bool.not_eq_true'] at staying
    rw [tree_of_parent _ _ (parent_inPruned dropped place enclosing up staying.1),
      inductionHypothesis staying.2, tree_of_parent place enclosing up]

theorem remnants_eq_map_focus (places : List (Cursor α))
    (kept : ∀ place ∈ places, dropped place = false ∧ pruned dropped place = place.focus) :
    remnants dropped places = places.map focus := by
  have all : places.filter (fun place => !dropped place) = places := by
    rw [List.filter_eq_self]
    intro place member
    simp [(kept place member).1]
  rw [remnants, all, List.map_inj_left]
  intro place member
  exact (kept place member).2

/-- If nothing at or below a place is dropped, everything is left of it. -/
theorem pruned_of_untouched (place : Cursor α)
    (untouched : ∀ other ∈ place.walk, dropped other = false) :
    pruned dropped place = place.focus := by
  induction place using children_induction with
  | step place inductionHypothesis =>
    have below : remnants dropped place.children = place.children.map focus := by
      apply remnants_eq_map_focus
      intro child member
      have childUntouched : ∀ other ∈ child.walk, dropped other = false := by
        intro other inside
        exact untouched other ((mem_walk_iff other place).mpr (Or.inr ⟨child, member, inside⟩))
      exact ⟨childUntouched child (self_mem_walk child),
        inductionHypothesis child member childUntouched⟩
    rw [pruned_eq, below, map_focus_children]
    obtain ⟨⟨name, trees⟩, above⟩ := place
    rfl

/-- If everything that is dropped lies at or below one child, everything is left of its siblings. -/
theorem remnants_of_split (enclosing child : Cursor α) (before after : List (Cursor α))
    (split : enclosing.children = before ++ child :: after)
    (inside : ∀ other, dropped other = true → other ∈ child.walk) :
    remnants dropped before = before.map focus ∧ remnants dropped after = after.map focus := by
  have apart := walks_of_children_disjoint enclosing
  rw [split, List.pairwise_append, List.pairwise_cons] at apart
  obtain ⟨-, ⟨apartAfter, -⟩, apartBefore⟩ := apart
  have left (siblings : List (Cursor α))
      (apart : ∀ sibling ∈ siblings, sibling.walk.Disjoint child.walk) :
      remnants dropped siblings = siblings.map focus := by
    apply remnants_eq_map_focus
    intro sibling member
    have untouched : ∀ other ∈ sibling.walk, dropped other = false := by
      intro other below
      rw [Bool.eq_false_iff]
      intro gone
      exact apart sibling member below (inside other gone)
    exact ⟨untouched sibling (self_mem_walk sibling),
      pruned_of_untouched dropped sibling untouched⟩
  constructor
  · apply left
    intro sibling member
    exact apartBefore sibling member child List.mem_cons_self
  · apply left
    intro sibling member other below inside
    exact apartAfter sibling member inside below

/-- If everything that is dropped lies at or below a place, the surroundings of the place are
left. -/
theorem above_inPruned (place : Cursor α)
    (inside : ∀ other, dropped other = true → other ∈ place.walk) :
    (inPruned dropped place).above = place.above := by
  induction place using parent_induction with
  | root place root =>
    rw [eq_top_of_parent_none place root]
    rfl
  | step place enclosing up inductionHypothesis =>
    have below := (mem_children_iff place enclosing).mpr up
    have insideEnclosing : ∀ other, dropped other = true → other ∈ enclosing.walk := by
      intro other gone
      exact (mem_walk_iff other enclosing).mpr (Or.inr ⟨place, below, inside other gone⟩)
    obtain ⟨before, after, split⟩ := List.append_of_mem below
    obtain ⟨leftBefore, leftAfter⟩ :=
      remnants_of_split dropped enclosing place before after split inside
    rw [inPruned_of_split dropped enclosing place before after split, leftBefore, leftAfter,
      inductionHypothesis insideEnclosing, above_of_split enclosing place before after split]

end StraySemicolon.Cursor

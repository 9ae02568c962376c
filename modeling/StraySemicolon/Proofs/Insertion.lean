import StraySemicolon.Proofs.Links
import StraySemicolon.Proofs.Pruning

/-!
# One leaf more

A tree can be put between the children of a place (`Cursor.insertedAt`). If it is a single leaf, the
larger tree has one place more. `Cursor.without` says of every other place of the larger tree which
place of the old tree it is: taking the leaf out again gives the old tree back, with the same
labels, the same enclosing nodes and the same order (`walk_without`).
-/

namespace StraySemicolon.Cursor

variable {α : Type}

/-! ## An inserted tree and its neighbours -/

/-- The place of a tree that is put between the children of a place, so many of them before it. -/
def insertedAt (place : Cursor α) (position : Nat) (added : Tree α) : Cursor α :=
  ⟨added, ⟨place.label, (place.focus.children.take position).reverse,
    place.focus.children.drop position⟩ :: place.above⟩

/-- After an inserted tree comes the tree that was at its position. -/
theorem map_focus_next_insertedAt (place : Cursor α) (position : Nat) (added : Tree α) :
    (place.insertedAt position added).next.map focus = place.focus.children[position]? := by
  rw [← List.head?_drop, insertedAt]
  cases place.focus.children.drop position <;> rfl

/-- Before an inserted tree comes the tree that was just before its position. -/
theorem map_focus_previous_insertedAt (place : Cursor α) (position : Nat) (added : Tree α) :
    (place.insertedAt position added).previous.map focus =
      (place.focus.children.take position).getLast? := by
  rw [← List.head?_reverse, insertedAt]
  cases (place.focus.children.take position).reverse <;> rfl

/-! ## Taking a leaf out -/

/-- Nothing lies below a leaf. -/
theorem not_mem_ancestors_of_leaf (leaf place : Cursor α) (bare : leaf.children = []) :
    leaf ∉ place.ancestors := by
  induction place using parent_induction with
  | root place root => simp [ancestors_of_root place root]
  | step place enclosing up inductionHypothesis =>
    rw [ancestors_of_parent place enclosing up, List.mem_cons, not_or]
    refine ⟨?_, inductionHypothesis⟩
    rintro rfl
    simpa [bare] using (mem_children_iff place leaf).mpr up

variable [DecidableEq α]

/-- Where a place goes when another one is taken out of the tree. -/
def without (gone place : Cursor α) : Cursor α :=
  inPruned (fun other => decide (other = gone)) place

/-- The sibling after a place that is taken out then comes after the sibling that stood before. -/
theorem previous_without_next (gone next : Cursor α) (onward : gone.next = some next) :
    (gone.without next).previous = gone.previous.map gone.without := by
  have backward := (next_iff_previous gone next).mp onward
  obtain ⟨enclosing, up, -⟩ := parent_of_previous next gone backward
  obtain ⟨before, after, split⟩ := List.append_of_mem ((mem_children_iff next enclosing).mpr up)
  have nearest := (previous_of_split enclosing next before after split).2
  rw [backward, eq_comm, List.getLast?_eq_some_iff] at nearest
  obtain ⟨earlier, rfl⟩ := nearest
  have splitBefore : enclosing.children = earlier ++ gone :: (next :: after) := by simpa using split
  have distinct := links_correct.nodup_children enclosing
  change enclosing.children.Nodup at distinct
  rw [splitBefore, List.nodup_append', List.nodup_cons, List.mem_cons, not_or] at distinct
  obtain ⟨-, ⟨⟨different, -⟩, -⟩, apart⟩ := distinct
  have all : earlier.filter (fun other => !decide (other = gone)) = earlier := by
    rw [List.filter_eq_self]
    intro other member
    have : other ≠ gone := by
      rintro rfl
      exact apart member List.mem_cons_self
    simp [this]
  have kept : decide (next = gone) = false := by simpa using Ne.symm different
  rw [without, previous_inPruned_of_split _ enclosing next _ after split kept,
    List.filter_append, all, List.filter_cons_of_neg (by simp), List.filter_nil, List.append_nil,
    (previous_of_split enclosing gone earlier _ splitBefore).2]
  rfl

/-- The place around an inserted tree becomes the old place when the tree is taken out. -/
theorem without_parent (place enclosing : Cursor α) (position : Nat) (added : Tree α)
    (up : (place.insertedAt position added).parent = some enclosing) :
    without (place.insertedAt position added) enclosing = place := by
  generalize inserted : place.insertedAt position added = new at up ⊢
  have gone (other : Cursor α) (same : decide (other = new) = true) : other ∈ new.walk := by
    rw [of_decide_eq_true same]
    exact self_mem_walk new
  have below := (mem_children_iff new enclosing).mpr up
  obtain ⟨before, after, split⟩ := List.append_of_mem below
  obtain ⟨leftBefore, leftAfter⟩ := remnants_of_split _ enclosing new before after split gone
  have frames := above_of_split enclosing new before after split
  rw [← inserted, insertedAt, List.cons.injEq, Frame.mk.injEq, List.reverse_inj] at frames
  obtain ⟨⟨name, earlier, later⟩, above⟩ := frames
  have trees : pruned (fun other => decide (other = new)) enclosing = place.focus := by
    rw [pruned_eq, split, remnants_append, remnants_of_dropped _ new after (by simp), leftBefore,
      leftAfter, ← earlier, ← later, List.take_append_drop, ← name]
    obtain ⟨⟨name, trees⟩, above⟩ := place
    rfl
  have surroundings :
      (inPruned (fun other => decide (other = new)) enclosing).above = place.above := by
    rw [above, above_inPruned]
    intro other same
    exact (mem_walk_iff other enclosing).mpr (Or.inr ⟨new, below, gone other same⟩)
  exact congrArg₂ Cursor.mk trees surroundings

/-- When a leaf is taken out, all other places stay. -/
theorem stays_iff_ne (leaf place : Cursor α) (bare : leaf.children = []) :
    stays (fun other => decide (other = leaf)) place = decide (place ≠ leaf) := by
  have others : place.ancestors.all (fun other => !decide (other = leaf)) = true := by
    rw [List.all_eq_true]
    intro other member
    have different : other ≠ leaf := by
      rintro rfl
      exact not_mem_ancestors_of_leaf other place bare member
    simp [different]
  rw [stays, List.all_cons, others, Bool.and_true, decide_not]

/-- The places of the old tree are, in order, the places of the larger tree other than the new
leaf. -/
theorem walk_without (place : Cursor α) (position : Nat) (label : α) :
    let leaf := place.insertedAt position (.node label [])
    (top place.tree).walk =
      ((top leaf.tree).walk.filter fun other => decide (other ≠ leaf)).map leaf.without := by
  intro leaf
  have bare : leaf.children = [] := by
    simp [leaf, insertedAt, children, siblings, Tree.children]
  have staying (other : Cursor α) (different : other ≠ leaf) :
      stays (fun other => decide (other = leaf)) other = true := by
    simp [stays_iff_ne leaf other bare, different]
  obtain ⟨larger, up⟩ : ∃ larger, leaf.parent = some larger := ⟨_, rfl⟩
  have rootStays : top leaf.tree ≠ leaf := by
    intro same
    rw [← same] at up
    cases up
  have largerStays : larger ≠ leaf := by
    intro same
    have below := (mem_children_iff leaf larger).mpr up
    rw [same, bare] at below
    cases below
  have old : inPruned (fun other => decide (other = leaf)) (top leaf.tree) = top place.tree := by
    have whole := tree_inPruned _ larger (staying larger largerStays)
    change (leaf.without larger).tree = _ at whole
    rw [without_parent place larger position _ up, ← tree_of_parent leaf larger up] at whole
    rw [whole]
    rfl
  rw [← old, walk_inPruned _ _ (staying _ rootStays)]
  congr 2
  funext other
  exact stays_iff_ne leaf other bare

end StraySemicolon.Cursor

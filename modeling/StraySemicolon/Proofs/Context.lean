import StraySemicolon.Proofs.Cursor

/-!
# Trees within trees

A place of a tree is also a place of every larger tree that has this tree in it: the frames around
the whole tree go on where the frames of the place end. `Cursor.within` is that change of view. It
keeps everything that lies inside the tree, the walk included. What it adds are enclosing nodes and,
for the root of the inner tree only, siblings.
-/

namespace StraySemicolon.Cursor

variable {α : Type}

/-- A place as a place of the larger tree in which its own tree stands under the given frames. -/
def within (place : Cursor α) (outer : List (Frame α)) : Cursor α :=
  ⟨place.focus, place.above ++ outer⟩

/-- The nodes around the inner tree come last. -/
theorem enclosing_within (place : Cursor α) (outer : List (Frame α)) :
    (place.within outer).enclosing = place.enclosing ++ outer.map Frame.label := by
  simp [within, enclosing]

theorem siblings_append (label : α) (above outer : List (Frame α))
    (before trees : List (Tree α)) :
    siblings label (above ++ outer) before trees =
      (siblings label above before trees).map fun place => place.within outer := by
  induction trees generalizing before with
  | nil => rfl
  | cons first rest inductionHypothesis =>
    simp only [siblings, List.map_cons, inductionHypothesis]
    rfl

theorem children_within (place : Cursor α) (outer : List (Frame α)) :
    (place.within outer).children = place.children.map fun child => child.within outer :=
  siblings_append place.label place.above outer [] place.focus.children

/-- The larger tree has the same places at and below a place of the inner tree. -/
theorem walk_within (place : Cursor α) (outer : List (Frame α)) :
    (place.within outer).walk = place.walk.map fun inner => inner.within outer := by
  induction place using children_induction with
  | step place inductionHypothesis =>
    rw [walk_eq, walk_eq place, List.map_cons, children_within, List.flatMap_map, List.map_flatMap]
    congr 1
    exact List.flatMap_congr inductionHypothesis

theorem last_within (place : Cursor α) (outer : List (Frame α)) :
    (place.within outer).last = place.last.map fun child => child.within outer := by
  rw [← getLast?_children, ← getLast?_children, children_within, List.getLast?_map]

/-- Inside the inner tree, siblings are what they were. -/
theorem previous_within (place : Cursor α) (outer : List (Frame α))
    (inside : place.above ≠ []) :
    (place.within outer).previous = place.previous.map fun sibling => sibling.within outer := by
  obtain ⟨focus, frames⟩ := place
  cases frames with
  | nil => exact absurd rfl inside
  | cons frame above =>
    obtain ⟨label, before, after⟩ := frame
    cases before <;> rfl

end StraySemicolon.Cursor

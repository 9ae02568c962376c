import StraySemicolon.Proofs.Cursor

/-!
# Trees with other labels

Replacing every label of a tree by its image moves no node. `Cursor.map` takes a place to the place
at the same address of the new tree, and every move and every walk there is the image of the one
before. Nothing is asked of the map: different labels may get the same image.
-/

namespace StraySemicolon

variable {α β : Type}

namespace Tree

theorem label_map (f : α → β) (tree : Tree α) : (tree.map f).label = f tree.label := by
  cases tree
  rfl

theorem children_map (f : α → β) (tree : Tree α) :
    (tree.map f).children = mapAll f tree.children := by
  cases tree
  rfl

mutual

/-- The labels stand in the same order. -/
theorem preorder_map (f : α → β) :
    ∀ tree : Tree α, (tree.map f).preorder = tree.preorder.map f
  | .node label children => by
    rw [map, preorder_node, preorder_node, List.map_cons, flatMap_preorder_mapAll f children]

theorem flatMap_preorder_mapAll (f : α → β) : ∀ trees : List (Tree α),
    (mapAll f trees).flatMap preorder = (trees.flatMap preorder).map f
  | [] => rfl
  | first :: rest => by
    rw [mapAll, List.flatMap_cons, List.flatMap_cons, List.map_append, preorder_map f first,
      flatMap_preorder_mapAll f rest]

end

end Tree

/-- The frame with every label replaced by its image. -/
def Frame.map (f : α → β) (frame : Frame α) : Frame β :=
  ⟨f frame.label, Tree.mapAll f frame.before, Tree.mapAll f frame.after⟩

namespace Cursor

/-- The place at the same address of the tree with every label replaced by its image. -/
def map (f : α → β) (place : Cursor α) : Cursor β :=
  ⟨place.focus.map f, place.above.map (Frame.map f)⟩

theorem label_map (f : α → β) (place : Cursor α) : (place.map f).label = f place.label :=
  Tree.label_map f place.focus

theorem enclosing_map (f : α → β) (place : Cursor α) :
    (place.map f).enclosing = place.enclosing.map f := by
  simp only [map, enclosing, List.map_map]
  rfl

theorem siblings_map (f : α → β) (label : α) (above : List (Frame α))
    (before trees : List (Tree α)) :
    siblings (f label) (above.map (Frame.map f)) (Tree.mapAll f before) (Tree.mapAll f trees) =
      (siblings label above before trees).map (map f) := by
  induction trees generalizing before with
  | nil => rfl
  | cons first rest inductionHypothesis =>
    have later := inductionHypothesis (first :: before)
    rw [Tree.mapAll] at later
    rw [Tree.mapAll, siblings, siblings, List.map_cons, later]
    rfl

theorem children_map (f : α → β) (place : Cursor α) :
    (place.map f).children = place.children.map (map f) := by
  have below := siblings_map f place.label place.above [] place.focus.children
  rw [children, label_map]
  change siblings _ (place.above.map (Frame.map f)) [] (place.focus.map f).children = _
  rw [Tree.children_map]
  exact below

/-- The new tree has the same places in the same order. -/
theorem walk_map (f : α → β) (place : Cursor α) :
    (place.map f).walk = place.walk.map (map f) := by
  induction place using children_induction with
  | step place inductionHypothesis =>
    rw [walk_eq, walk_eq place, List.map_cons, children_map, List.flatMap_map, List.map_flatMap]
    congr 1
    exact List.flatMap_congr inductionHypothesis

theorem last_map (f : α → β) (place : Cursor α) :
    (place.map f).last = place.last.map (map f) := by
  rw [← getLast?_children, ← getLast?_children, children_map, List.getLast?_map]

theorem previous_map (f : α → β) (place : Cursor α) :
    (place.map f).previous = place.previous.map (map f) := by
  obtain ⟨focus, frames⟩ := place
  cases frames with
  | nil => rfl
  | cons frame above =>
    obtain ⟨label, before, after⟩ := frame
    cases before <;> rfl

/-- A walk meets the labels below a place in preorder. -/
theorem map_label_walk (place : Cursor α) : place.walk.map label = place.focus.preorder := by
  induction place using children_induction with
  | step place inductionHypothesis =>
    have shape : place.focus = .node place.label place.focus.children := by
      obtain ⟨⟨_, _⟩, _⟩ := place
      rfl
    rw [walk_eq, List.map_cons, List.map_flatMap, List.flatMap_congr inductionHypothesis, shape,
      Tree.preorder_node, ← map_focus_children, List.flatMap_map]

end Cursor

end StraySemicolon

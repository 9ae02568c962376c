import StraySemicolon.Proofs.Declarations
import StraySemicolon.Proofs.Relabelling
import StraySemicolon.Proofs.Selection

/-!
# Moving a source

Reformatting a source moves its nodes and leaves their order alone. A verdict reads kinds and never
a place, so the same nodes are reported afterwards. Places are read once the issues are raised: an
issue is suppressed if an earlier one has its key, and the kept ones are sorted. Both only compare
places that occur in the source, and a map that is strictly increasing on these keeps every
comparison as it was.
-/

namespace StraySemicolon

/-! ## Moves -/

/-- Whether a point comes before another one: in an earlier row, or further to the left in its
row. -/
def Point.Before (first second : Point) : Prop :=
  first.row < second.row ∨ first.row = second.row ∧ first.column < second.column

/-- Whether a map keeps the order of the given points. -/
def Point.IncreasingOn (f : Point → Point) (points : List Point) : Prop :=
  ∀ first ∈ points, ∀ second ∈ points, first.Before second → (f first).Before (f second)

/-- The concrete node with its start moved. -/
def ConcreteNode.moved (f : Point → Point) (node : ConcreteNode) : ConcreteNode :=
  { node with start := f node.start }

/-- The points at which the nodes of a tree begin. -/
def ConcreteTree.starts (tree : ConcreteTree) : List Point :=
  tree.preorder.map ConcreteNode.start

/-- The source with every node moved. Text and byte offsets stay as they are. -/
def Parsed.moved (f : Point → Point) (parsed : Parsed) : Parsed :=
  { parsed with tree := parsed.tree.map (ConcreteNode.moved f) }

/-- The point of a line and a column, which are counted from 1. -/
def Point.ofLine (line column : Int) : Point :=
  ⟨line - 1, column - 1⟩

/-- The syntax node with its place moved. -/
def SyntaxNode.moved (f : Point → Point) (node : SyntaxNode) : SyntaxNode :=
  { node with
    line := (f (.ofLine node.line node.column)).row + 1
    column := (f (.ofLine node.line node.column)).column + 1 }

/-- The point that an issue is about. -/
def Issue.point (issue : Issue) : Point :=
  .ofLine issue.line issue.col

/-- The issue with its place moved. -/
def Issue.moved (f : Point → Point) (issue : Issue) : Issue :=
  { issue with line := (f issue.point).row + 1, col := (f issue.point).column + 1 }

/-- The event with the place it is about moved. -/
def TraceEvent.moved (f : Point → Point) : TraceEvent → TraceEvent
  | parseError start near => .parseError (f start) near
  | duplicate issue => .duplicate (issue.moved f)
  | finding issue => .finding (issue.moved f)

/-- What a lint run leaves behind, with all places moved. -/
def LintRun.moved (f : Point → Point) (run : LintRun) : LintRun :=
  ⟨run.trace.map (TraceEvent.moved f), run.outcome.map (List.map (Issue.moved f))⟩

/-! ## Verdicts do not read places -/

/-- Moving a node and converting it come to the same in either order. -/
theorem SyntaxNode.ofConcrete_moved (f : Point → Point) (parent : Option Kind)
    (node : ConcreteNode) :
    SyntaxNode.ofConcrete parent (node.moved f) = (SyntaxNode.ofConcrete parent node).moved f := by
  simp [ofConcrete, moved, ConcreteNode.moved, Point.ofLine]

namespace SyntaxTree

mutual

theorem contribution_moved (f : Point → Point) (parent : Kind) : ∀ tree : ConcreteTree,
    contribution parent (tree.map (ConcreteNode.moved f)) =
      Tree.mapAll (SyntaxNode.moved f) (contribution parent tree)
  | .node label children => by
    have inner (kind : Kind) := below_moved f kind children
    have trivia : (label.moved f).isTrivia = label.isTrivia := rfl
    have wrapper : (label.moved f).isWrapper = label.isWrapper := rfl
    rw [Tree.map, contribution, contribution, trivia, wrapper]
    split
    · rfl
    · split
      · exact inner parent
      · rw [Tree.mapAll, Tree.mapAll, Tree.map, SyntaxNode.ofConcrete_moved, inner]
        rfl

/-- What stands below a node is moved with the concrete children. -/
theorem below_moved (f : Point → Point) (parent : Kind) : ∀ trees : List ConcreteTree,
    below parent (Tree.mapAll (ConcreteNode.moved f) trees) =
      Tree.mapAll (SyntaxNode.moved f) (below parent trees)
  | [] => rfl
  | child :: rest => by
    rw [Tree.mapAll, below, below, Tree.mapAll_append, contribution_moved f parent child,
      below_moved f parent rest]

end

/-- The converted tree is moved with the concrete one. -/
theorem ofConcrete_moved (f : Point → Point) (tree : ConcreteTree) :
    ofConcrete (tree.map (ConcreteNode.moved f)) = (ofConcrete tree).map (SyntaxNode.moved f) := by
  rw [ofConcrete_eq, ofConcrete_eq, convert, convert, Tree.map, Tree.label_map, Tree.children_map,
    below_moved, SyntaxNode.ofConcrete_moved]
  rfl

end SyntaxTree

theorem Place.kind_map_moved (f : Point → Point) (place : Place) :
    Place.kind (place.map (SyntaxNode.moved f)) = place.kind := by
  rw [Place.kind, Cursor.label_map]
  rfl

namespace MemberSemicolon

/-- The verdict on a moved node is the verdict on the node, moved. -/
theorem visit_map_moved (f : Point → Point) (place : Place) :
    visit (place.map (SyntaxNode.moved f)) = (visit place).map (Issue.moved f) := by
  have enclosing :
      Place.enclosingKinds (place.map (SyntaxNode.moved f)) = place.enclosingKinds := by
    rw [Place.enclosingKinds, Cursor.enclosing_map, List.map_map]
    rfl
  have sights (sibling : Place) : sight (sibling.map (SyntaxNode.moved f)) = sight sibling := by
    rw [sight, sight, Place.kind_map_moved, Cursor.last_map, Option.map_map]
    exact congrArg (fun read => (sibling.kind, sibling.last.map read))
      (funext (Place.kind_map_moved f))
  have before : (place.map (SyntaxNode.moved f)).previous.map sight = place.previous.map sight := by
    rw [Cursor.previous_map, Option.map_map]
    exact congrArg (fun read => place.previous.map read) (funext sights)
  rw [visit_eq, visit_eq, Place.kind_map_moved, enclosing, before, Cursor.label_map]
  split <;> rfl

end MemberSemicolon

/-! ## What is raised -/

/-- Registered checks raise at a place only what the check for semicolons says of it. -/
theorem raisedAt_eq_flatMap_visit (checks : List Check)
    (known : ∀ check ∈ checks, check ∈ Check.registered) (place : Place) :
    Walk.raisedAt checks place =
      (checks.filter fun check => check.kinds.contains place.kind).flatMap fun _ =>
        MemberSemicolon.visit place := by
  refine List.flatMap_congr fun check member => ?_
  rw [List.mem_singleton.mp (known check (List.mem_of_mem_filter member))]
  rfl

/-- A moved tree raises what the tree raises, moved. -/
theorem raised_map_moved (f : Point → Point) (checks : List Check)
    (known : ∀ check ∈ checks, check ∈ Check.registered) (tree : SyntaxTree) :
    Walk.raised checks (tree.map (SyntaxNode.moved f)) =
      (Walk.raised checks tree).map (Issue.moved f) := by
  have top : Cursor.top (tree.map (SyntaxNode.moved f)) =
    (Cursor.top tree).map (SyntaxNode.moved f) := rfl
  rw [Walk.raised_eq_flatMap, Walk.raised_eq_flatMap, top, Cursor.walk_map, List.flatMap_map,
    List.map_flatMap]
  refine List.flatMap_congr fun place _ => ?_
  rw [raisedAt_eq_flatMap_visit checks known, raisedAt_eq_flatMap_visit checks known,
    Place.kind_map_moved, MemberSemicolon.visit_map_moved, List.map_flatMap]

/-- An issue is raised at a point where a node of the concrete tree begins. -/
theorem point_mem_starts_of_raised (checks : List Check)
    (known : ∀ check ∈ checks, check ∈ Check.registered) (tree : ConcreteTree) (issue : Issue)
    (raised : issue ∈ Walk.raised checks (SyntaxTree.ofConcrete tree)) :
    issue.point ∈ tree.starts := by
  rw [Walk.raised_eq_flatMap, ConcretePlace.walk_ofConcrete, List.flatMap_map] at raised
  obtain ⟨place, listed, raised⟩ := List.mem_flatMap.mp raised
  rw [raisedAt_eq_flatMap_visit checks known] at raised
  obtain ⟨-, -, raised⟩ := List.mem_flatMap.mp raised
  rw [MemberSemicolon.visit_eq] at raised
  split at raised
  case isFalse => cases raised
  case isTrue =>
    have point : issue.point = place.label.start := by
      rw [List.mem_singleton.mp raised]
      simp [Issue.point, Issue.atNode, Point.ofLine, ConcretePlace.converted, SyntaxTree.convert,
        SyntaxNode.ofConcrete, Cursor.label, Tree.label]
    have label : place.label ∈ tree.preorder := by
      have member := List.mem_map_of_mem (f := Cursor.label) (List.mem_of_mem_filter listed)
      rwa [Cursor.map_label_walk] at member
    rw [point]
    exact List.mem_map_of_mem label

/-! ## What is made of it -/

namespace Walk

variable (f : Issue → Issue) (raised : List Issue)

/-- A map that keeps keys apart and together keeps repetitions. -/
theorem repeatsBefore_map
    (keys : ∀ first ∈ raised, ∀ second ∈ raised,
      (f first).key = (f second).key ↔ first.key = second.key)
    (position : Nat) (issue : Issue) (member : issue ∈ raised) :
    repeatsBefore (raised.map f) position (f issue) = repeatsBefore raised position issue := by
  rw [repeatsBefore, repeatsBefore, ← List.map_take, List.any_map, Bool.eq_iff_iff,
    List.any_eq_true, List.any_eq_true]
  refine exists_congr fun earlier => and_congr_right fun before => ?_
  simpa using keys earlier (List.mem_of_mem_take before) issue member

/-- Whatever is picked by its repetition is picked after the map as before. -/
theorem picked_map (test : Bool → Bool)
    (keys : ∀ first ∈ raised, ∀ second ∈ raised,
      (f first).key = (f second).key ↔ first.key = second.key) :
    picked test (raised.map f) = (picked test raised).map f := by
  have same : raised.zipIdx.filter
        ((fun listed => test (repeatsBefore (raised.map f) listed.2 listed.1)) ∘ Prod.map f id) =
      raised.zipIdx.filter fun listed => test (repeatsBefore raised listed.2 listed.1) :=
    List.filter_congr fun listed member => congrArg test
      (repeatsBefore_map f raised keys listed.2 listed.1 (List.fst_mem_of_mem_zipIdx member))
  rw [picked, List.zipIdx_map, List.filter_map, same, picked, List.map_map, List.map_map]
  rfl

theorem firsts_map
    (keys : ∀ first ∈ raised, ∀ second ∈ raised,
      (f first).key = (f second).key ↔ first.key = second.key) :
    firsts (raised.map f) = (firsts raised).map f :=
  picked_map f raised not keys

theorem repeats_map
    (keys : ∀ first ∈ raised, ∀ second ∈ raised,
      (f first).key = (f second).key ↔ first.key = second.key) :
    repeats (raised.map f) = (repeats raised).map f :=
  picked_map f raised id keys

end Walk

/-- Two different points stand in an order. -/
theorem Point.eq_or_before (first second : Point) :
    first = second ∨ first.Before second ∨ second.Before first := by
  obtain ⟨row, column⟩ := first
  obtain ⟨otherRow, otherColumn⟩ := second
  simp only [Before, Point.mk.injEq]
  omega

/-- No point comes before one that comes before it. -/
theorem Point.Before.asymm {first second : Point} (before : first.Before second) :
    ¬ second.Before first := by
  unfold Before at *
  omega

theorem Issue.notAfter_iff (first second : Issue) :
    first.notAfter second = true ↔ ¬ second.point.Before first.point := by
  simp only [notAfter, point, Point.ofLine, Point.Before, Bool.or_eq_true, Bool.and_eq_true,
    decide_eq_true_eq, beq_iff_eq]
  omega

/-- A map that is strictly increasing on some points keeps their order. -/
theorem before_iff_of_increasing (f : Point → Point) (points : List Point)
    (increasing : Point.IncreasingOn f points)
    (first second : Point) (memberFirst : first ∈ points) (memberSecond : second ∈ points) :
    (f first).Before (f second) ↔ first.Before second := by
  constructor
  · intro before
    rcases first.eq_or_before second with rfl | ordered | ordered
    · exact absurd before before.asymm
    · exact ordered
    · exact absurd before (increasing second memberSecond first memberFirst ordered).asymm
  · exact increasing first memberFirst second memberSecond

/-- A map that is strictly increasing on some points keeps them apart. -/
theorem eq_iff_of_increasing (f : Point → Point) (points : List Point)
    (increasing : Point.IncreasingOn f points)
    (first second : Point) (memberFirst : first ∈ points) (memberSecond : second ∈ points) :
    f first = f second ↔ first = second := by
  constructor
  · intro same
    rcases first.eq_or_before second with equal | ordered | ordered
    · exact equal
    · have moved := increasing first memberFirst second memberSecond ordered
      rw [same] at moved
      exact absurd moved moved.asymm
    · have moved := increasing second memberSecond first memberFirst ordered
      rw [same] at moved
      exact absurd moved moved.asymm
  · exact congrArg f

/-- A moved issue is about the moved point. -/
theorem Issue.point_moved (f : Point → Point) (issue : Issue) :
    (issue.moved f).point = f issue.point := by
  simp [moved, point, Point.ofLine]

/-- The keys of two issues agree if they are of one sort and about one point. -/
theorem Issue.key_eq_iff (first second : Issue) :
    first.key = second.key ↔ first.kind = second.kind ∧ first.point = second.point := by
  simp [key, point, Point.ofLine]

/-- The warnings for a moved source are those for the source, moved. -/
theorem parseErrors_moved (parsed : Parsed) (f : Point → Point) :
    (parsed.moved f).parseErrors = parsed.parseErrors.map (TraceEvent.moved f) := by
  unfold Parsed.parseErrors
  change (if parsed.hasError = true then _ else []) = _
  split
  · change (((parsed.tree.map _).preorder.filter ConcreteNode.isError).map _) = _
    rw [Tree.preorder_map, List.filter_map, List.map_map, List.map_map]
    rfl
  · rfl

/-- Reformatting only moves reports. When the nodes of a source are moved by a map that is strictly
increasing on the points at which they begin, a lint run does the same as before: it warns,
suppresses and reports in the same order, or refuses the same name, and every place it tells of is
moved. -/
theorem lint_moved (parsed : Parsed) (f : Point → Point) (names : Option (List String))
    (increasing : Point.IncreasingOn f parsed.tree.starts) :
    lint (parsed.moved f) names = (lint parsed names).moved f := by
  unfold lint
  cases resolved : Check.resolve names with
  | error unknown => exact congrArg (fun trace => LintRun.mk trace _) (parseErrors_moved parsed f)
  | ok checks =>
    have known := Check.mem_registered_of_resolve names checks resolved
    have root : (parsed.moved f).root = parsed.root.map (SyntaxNode.moved f) :=
      SyntaxTree.ofConcrete_moved f parsed.tree
    have points : ∀ issue ∈ Walk.raised checks parsed.root,
        issue.point ∈ parsed.tree.starts :=
      point_mem_starts_of_raised checks known parsed.tree
    have keys : ∀ first ∈ Walk.raised checks parsed.root,
        ∀ second ∈ Walk.raised checks parsed.root,
        (first.moved f).key = (second.moved f).key ↔ first.key = second.key := by
      intro first memberFirst second memberSecond
      rw [Issue.key_eq_iff, Issue.key_eq_iff, Issue.point_moved, Issue.point_moved,
        eq_iff_of_increasing f _ increasing _ _ (points first memberFirst)
          (points second memberSecond)]
      rfl
    have suppressed : (Walk.run checks (parsed.moved f).root).suppressed =
        (Walk.run checks parsed.root).suppressed.map (Issue.moved f) := by
      rw [Walk.run_eq, Walk.run_eq, root, raised_map_moved f checks known,
        Walk.repeats_map _ _ keys]
    have issues : (Walk.run checks (parsed.moved f).root).issues =
        (Walk.run checks parsed.root).issues.map (Issue.moved f) := by
      rw [Walk.run_eq, Walk.run_eq, root, raised_map_moved f checks known, Walk.firsts_map _ _ keys]
      refine (List.map_mergeSort fun first memberFirst second memberSecond => ?_).symm
      have kept := (Walk.firsts_append_repeats_perm (Walk.raised checks parsed.root)).subset
      have pointFirst := points first (kept (List.mem_append_left _ memberFirst))
      have pointSecond := points second (kept (List.mem_append_left _ memberSecond))
      rw [Bool.eq_iff_iff, Issue.notAfter_iff, Issue.notAfter_iff, Issue.point_moved,
        Issue.point_moved, before_iff_of_increasing f _ increasing _ _ pointSecond pointFirst]
    simp only [parseErrors_moved, suppressed, issues, LintRun.moved, List.map_append, List.map_map]
    rfl

/-- A body of three semicolons that are listed out of order, two of them at one point. -/
def scatteredBody : ConcreteTree :=
  let node (type : String) (row column : Int) (children : List ConcreteTree) : ConcreteTree :=
    .node ⟨type, ⟨row, column⟩, 0, 0, false⟩ children
  node "class_body" 0 0 [node "\x7b" 0 0 [], node ";" 1 5 [], node ";" 0 3 [], node ";" 1 5 []]

theorem run_scatteredBody :
    Walk.run Check.registered (SyntaxTree.ofConcrete scatteredBody) =
      ⟨[⟨"unnecessary.semicolon", 1, 4, "Unnecessary semicolon."⟩,
        ⟨"unnecessary.semicolon", 2, 6, "Unnecessary semicolon."⟩],
        [⟨"unnecessary.semicolon", 2, 6, "Unnecessary semicolon."⟩]⟩ := by
  let early : Issue := ⟨"unnecessary.semicolon", 1, 4, "Unnecessary semicolon."⟩
  let late : Issue := ⟨"unnecessary.semicolon", 2, 6, "Unnecessary semicolon."⟩
  have raised :
      ((Cursor.top scatteredBody).walk.filter ConcretePlace.isStray).map ConcretePlace.issue =
        [late, early, late] := by
    decide +kernel
  have reported : Walk.firsts [late, early, late] = [late, early] := by decide
  have suppressed : Walk.repeats [late, early, late] = [late] := by decide
  have sorted : [late, early].mergeSort Issue.notAfter = [early, late] := by
    simp [List.mergeSort, Issue.notAfter, early, late]
  rw [Walk.run_eq, raised_registered, raised, reported, suppressed, sorted]

/-- An empty line before every line, and four more columns in front: the semicolon that repeats a
place is still suppressed, and the two others are reported, in the order of their new places. -/
theorem lint_scatteredBody_moved :
    let f (point : Point) : Point := ⟨2 * point.row + 1, point.column + 4⟩
    let parsed : Parsed := ⟨scatteredBody, [], true⟩
    Point.IncreasingOn f parsed.tree.starts ∧
    lint (parsed.moved f) none = (lint parsed none).moved f ∧
    (lint (parsed.moved f) none).trace =
      [.duplicate ⟨"unnecessary.semicolon", 4, 10, "Unnecessary semicolon."⟩,
        .finding ⟨"unnecessary.semicolon", 2, 8, "Unnecessary semicolon."⟩,
        .finding ⟨"unnecessary.semicolon", 4, 10, "Unnecessary semicolon."⟩] := by
  intro f parsed
  have increasing : Point.IncreasingOn f parsed.tree.starts := by
    intro first _ second _ before
    simp only [Point.Before, f] at *
    omega
  have moved := lint_moved parsed f none increasing
  have noWarning : parsed.parseErrors = [] := by decide +kernel
  refine ⟨increasing, moved, ?_⟩
  rw [moved]
  change ((parsed.parseErrors ++ (Walk.run Check.registered parsed.root).suppressed.map _ ++
    (Walk.run Check.registered parsed.root).issues.map _).map _) = _
  rw [noWarning, Parsed.root, run_scatteredBody]
  rfl

end StraySemicolon

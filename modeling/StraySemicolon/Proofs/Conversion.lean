import StraySemicolon.Proofs.Cursor
import StraySemicolon.SyntaxTree

/-!
# The conversion by recursion

The worklist of `SyntaxTree.ofConcrete` takes the most recent entry first, so siblings are expanded
from right to left and a node is listed long before its children are. What makes this come out right
is an invariant on the collected children: for every number that is already given out, the nodes
still to be listed add exactly the conversions of the members of the pending tree with that number.

`SyntaxTree.convert` is the recursion that the worklist stands for, and `Converts` says of every
node of a syntax tree what it has to be: its kind, its text, its place in the source, its parent,
its index, and one child for each member of its concrete tree. There is exactly one such syntax
tree, and the worklist makes it.
-/

namespace StraySemicolon

namespace Kind

/-- The kinds of the grammar rules whose kind does not depend on where they stand. -/
def table : List (String × Kind) :=
  [("program", compilationUnit), ("class_declaration", classDef),
    ("interface_declaration", interfaceDef), ("enum_declaration", enumDef),
    ("annotation_type_declaration", annotationDef), ("record_declaration", recordDef),
    ("class_body", objBlock), ("interface_body", objBlock), ("enum_body", objBlock),
    ("annotation_type_body", objBlock), ("field_declaration", fieldDef),
    ("constant_declaration", fieldDef), ("annotation_type_element_declaration", annotationFieldDef),
    ("static_initializer", staticInit), ("constructor_declaration", ctorDef),
    ("compact_constructor_declaration", compactCtorDef), ("method_declaration", methodDef),
    ("enum_constant", enumConstantDef), ("object_creation_expression", literalNew),
    ("constructor_body", slist), ("\x7b", lcurly), ("\x7d", rcurly), (",", comma)]

/-- Apart from semicolons and blocks, the kind of a node is the entry of its rule in the table. -/
theorem ofType_eq_lookup (type : String) (parent : Option Kind) (notSemicolon : type ≠ ";")
    (notBlock : type ≠ "block") : ofType type parent = (table.lookup type).getD other := by
  unfold ofType
  split
  case h_1 => exact absurd rfl notSemicolon
  case h_2 => exact absurd rfl notBlock
  case h_26 =>
    have unlisted : table.lookup type = none := by
      rw [List.lookup_eq_none_iff]
      simp only [table, List.forall_mem_cons, bne_iff_ne, ne_eq, List.not_mem_nil, false_imp_iff,
        implies_true, and_true]
      and_intros <;> assumption
    rw [unlisted]
    rfl
  all_goals rfl

end Kind

namespace SyntaxTree

/-! ## The recursion -/

/-- The syntax tree of a concrete tree that is listed below a node of the given kind. -/
def convert (parent : Option Kind) (tree : ConcreteTree) : SyntaxTree :=
  let node := SyntaxNode.ofConcrete parent tree.label
  .node node (below node.kind tree.children)

theorem below_append (parent : Kind) (first second : List ConcreteTree) :
    below parent (first ++ second) = below parent first ++ below parent second := by
  induction first with
  | nil => rfl
  | cons child rest inductionHypothesis => simp [below, inductionHypothesis]

mutual

/-- A child contributes the conversions of what it contributes to the members. -/
theorem contribution_eq_map (parent : Kind) : ∀ tree : ConcreteTree,
    contribution parent tree = (ConcreteTree.contribution tree).map (convert (some parent))
  | .node label children => by
    have inner := below_eq_map parent children
    rw [contribution, ConcreteTree.contribution]
    split
    · rfl
    · split
      · exact inner
      · rfl

/-- What stands below a node are the conversions of its members. -/
theorem below_eq_map (parent : Kind) : ∀ trees : List ConcreteTree,
    below parent trees = (ConcreteTree.membersOf trees).map (convert (some parent))
  | [] => rfl
  | child :: rest => by
    rw [below, ConcreteTree.membersOf, List.map_append, contribution_eq_map parent child,
      below_eq_map parent rest]

end

theorem convert_eq (parent : Option Kind) (tree : ConcreteTree) :
    convert parent tree =
      .node (.ofConcrete parent tree.label)
        (tree.members.map (convert (some (.ofType tree.label.type parent)))) := by
  rw [convert, below_eq_map]
  rfl

/-! ## The worklist -/

/-- What a pending tree still has to get below it. -/
def Pending.due (entry : Pending) : List SyntaxTree :=
  entry.tree.members.map (convert (some entry.kind))

/-- The members of a pending tree get consecutive numbers. -/
theorem number_mem_enter (parent : Kind) (number : Nat) (members : List ConcreteTree) :
    ∀ entry ∈ Pending.enter parent number members,
      number ≤ entry.number ∧ entry.number < number + members.length := by
  induction members generalizing number with
  | nil => simp [Pending.enter]
  | cons member rest inductionHypothesis =>
    intro entry entered
    simp only [Pending.enter, List.mem_cons] at entered
    rcases entered with rfl | later
    · simp
    · have inside := inductionHypothesis (number + 1) entry later
      simp only [List.length_cons]
      omega

/-- The member at a position gets the number that many places on. -/
theorem mem_enter (parent : Kind) (number : Nat) (members : List ConcreteTree) (position : Nat)
    (inside : position < members.length) :
    ⟨number + position, .ofType members[position].label.type (some parent),
      members[position]⟩ ∈
      Pending.enter parent number members := by
  induction members generalizing number position with
  | nil => simp at inside
  | cons member rest inductionHypothesis =>
    cases position with
    | zero => exact List.mem_cons_self
    | succ position =>
      have next := inductionHypothesis (number + 1) position (by simpa using inside)
      rw [Nat.add_right_comm, Nat.add_assoc] at next
      exact List.mem_cons_of_mem _ next

/-- No two members share a number. -/
theorem filter_enter (parent : Kind) (number : Nat) (members : List ConcreteTree) (entry : Pending)
    (entered : entry ∈ Pending.enter parent number members) :
    (Pending.enter parent number members).filter (fun other => other.number == entry.number) =
      [entry] := by
  induction members generalizing number with
  | nil => simp [Pending.enter] at entered
  | cons member rest inductionHypothesis =>
    simp only [Pending.enter, List.mem_cons] at entered
    rcases entered with rfl | later
    · rw [Pending.enter, List.filter_cons_of_pos (by simp), List.filter_eq_nil_iff.mpr]
      intro other entered
      have above := (number_mem_enter parent (number + 1) rest other entered).1
      simp only [beq_iff_eq]
      omega
    · have above := (number_mem_enter parent (number + 1) rest entry later).1
      rw [Pending.enter, List.filter_cons_of_neg, inductionHypothesis (number + 1) later]
      simp only [beq_iff_eq]
      omega

/-- A number that is not given to a member has no entry. -/
theorem filter_enter_of_lt (parent : Kind) (number : Nat) (members : List ConcreteTree)
    (asked : Nat) (earlier : asked < number) :
    (Pending.enter parent number members).filter (fun entry => entry.number == asked) = [] := by
  rw [List.filter_eq_nil_iff]
  intro entry entered
  have later := (number_mem_enter parent number members entry entered).1
  simp only [beq_iff_eq]
  omega

/-- Members on top of a worklist leave alone what was pending under an earlier number. -/
theorem filter_members_of_lt (parent : Kind) (number : Nat) (members : List ConcreteTree)
    (pending : List Pending) (asked : Nat) (earlier : asked < number) :
    ((Pending.enter parent number members).reverse ++ pending).filter
        (fun entry => entry.number == asked) =
      pending.filter fun entry => entry.number == asked := by
  rw [List.filter_append, List.filter_reverse,
    filter_enter_of_lt parent number members asked earlier]
  rfl

/-- Members on top of a worklist of earlier numbers are the only ones pending under their
numbers. -/
theorem filter_members (parent : Kind) (number : Nat) (members : List ConcreteTree)
    (pending : List Pending) (given : ∀ entry ∈ pending, entry.number < number)
    (member : Pending) (entered : member ∈ Pending.enter parent number members) :
    ((Pending.enter parent number members).reverse ++ pending).filter
        (fun entry => entry.number == member.number) = [member] := by
  have low := (number_mem_enter parent number members member entered).1
  have noneWaiting : (pending.filter fun entry => entry.number == member.number) = [] := by
    rw [List.filter_eq_nil_iff]
    intro entry waiting
    have := given entry waiting
    simp only [beq_iff_eq]
    omega
  rw [List.filter_append, List.filter_reverse, filter_enter parent number members member entered,
    noneWaiting]
  rfl

/-- One step of the worklist. When every member of a tree has collected its own due, hanging the
members gives the tree its due. -/
theorem collected_hangAll_members (slots : Array (List SyntaxTree)) (number : Nat) (entry : Pending)
    (given : entry.number < number) (stored : entry.number < slots.size)
    (filled : ∀ member ∈ Pending.enter entry.kind number entry.tree.members,
      Tree.collected slots member.number = member.due)
    (asked : Nat) :
    Tree.collected (Tree.hangAll slots number (entry.tree.members.map fun member =>
        (entry.number, SyntaxNode.ofConcrete (some entry.kind) member.label))) asked =
      (if asked = entry.number then entry.due else []) ++ Tree.collected slots asked := by
  have shape : (entry.tree.members.map fun member =>
        (entry.number, SyntaxNode.ofConcrete (some entry.kind) member.label)) =
      (entry.tree.members.map fun member =>
        SyntaxNode.ofConcrete (some entry.kind) member.label).map fun label =>
          (entry.number, label) := by
    simp
  have hung : ((entry.tree.members.map fun member =>
        SyntaxNode.ofConcrete (some entry.kind) member.label).zipIdx number).map
          (fun listed => Tree.node listed.1 (Tree.collected slots listed.2)) = entry.due := by
    apply List.ext_getElem
    · simp [Pending.due]
    · intro position inside _
      have inside : position < entry.tree.members.length := by simpa using inside
      have ready := filled _ (mem_enter entry.kind number entry.tree.members position inside)
      simp only [List.getElem_map, List.getElem_zipIdx, Pending.due]
      rw [ready, convert_eq]
      rfl
  rw [shape, Tree.collected_hangAll_siblings slots number entry.number _ given stored, hung]

/-- The invariant of the worklist. Once all nodes are hung that are listed from the pending trees
on, every number given out before has collected what the pending trees of that number are due, in
front of what it had.

The induction is on the worklist. The members of the tree on top get the next numbers and are hung
last; by then each of them has collected its own due. -/
theorem collected_enterAll (number : Nat) (pending : List Pending)
    (slots : Array (List SyntaxTree))
    (given : ∀ entry ∈ pending, entry.number < number)
    (room : number + (enterAll number pending).length ≤ slots.size)
    (fresh : ∀ later, number ≤ later → Tree.collected slots later = [])
    (asked : Nat) (earlier : asked < number) :
    Tree.collected (Tree.hangAll slots number (enterAll number pending)) asked =
      (pending.filter fun entry => entry.number == asked).flatMap Pending.due ++
        Tree.collected slots asked := by
  induction number, pending using enterAll.induct generalizing asked with
  | case1 number => simp [enterAll, Tree.hangAll]
  | case2 number parent kind tree pending members inductionHypothesis =>
    have parentGiven : parent < number := given ⟨parent, kind, tree⟩ List.mem_cons_self
    have restGiven (entry : Pending) (waiting : entry ∈ pending) : entry.number < number :=
      given entry (List.mem_cons_of_mem _ waiting)
    rw [enterAll] at room ⊢
    change number + (members.map _ ++ enterAll (number + members.length)
      ((Pending.enter kind number members).reverse ++ pending)).length ≤ slots.size at room
    simp only [List.length_append, List.length_map] at room
    rw [Tree.hangAll_append, List.length_map]
    generalize later :
      Tree.hangAll slots (number + members.length) (enterAll (number + members.length)
        ((Pending.enter kind number members).reverse ++ pending)) = expanded
    have collected (asked : Nat) (known : asked < number + members.length) :
        Tree.collected expanded asked =
          (((Pending.enter kind number members).reverse ++ pending).filter
            fun entry => entry.number == asked).flatMap Pending.due ++
              Tree.collected slots asked := by
      rw [← later]
      apply inductionHypothesis _ (by omega)
        (fun later atLeast => fresh later (by omega)) asked known
      intro entry waiting
      rcases List.mem_append.mp waiting with entered | waiting
      · exact (number_mem_enter kind number members entry (List.mem_reverse.mp entered)).2
      · have := restGiven entry waiting
        omega
    have filled (member : Pending) (entered : member ∈ Pending.enter kind number members) :
        Tree.collected expanded member.number = member.due := by
      obtain ⟨low, high⟩ := number_mem_enter kind number members member entered
      rw [collected member.number high, filter_members kind number members pending restGiven member
        entered, fresh member.number low]
      simp
    have settled : Tree.collected expanded asked =
        (pending.filter fun entry => entry.number == asked).flatMap Pending.due ++
          Tree.collected slots asked := by
      rw [collected asked (by omega),
        filter_members_of_lt kind number members pending asked earlier]
    have stored : parent < expanded.size := by
      rw [← later, Tree.size_hangAll]
      omega
    change Tree.collected (Tree.hangAll expanded number (members.map _)) asked = _
    rw [collected_hangAll_members expanded number ⟨parent, kind, tree⟩ parentGiven stored
      filled, settled]
    by_cases same : asked = parent
    · simp [same]
    · simp [same, Ne.symm same]

/-- The worklist makes what the recursion makes. -/
theorem ofConcrete_eq (tree : ConcreteTree) : ofConcrete tree = convert none tree := by
  let entry : Pending := ⟨0, (SyntaxNode.ofConcrete none tree.label).kind, tree⟩
  have empty (size asked : Nat) :
      Tree.collected (Array.replicate size ([] : List SyntaxTree)) asked = [] := by
    simp only [Tree.collected, Array.getElem?_replicate]
    split <;> rfl
  have complete :=
    collected_enterAll 1 [entry] (Array.replicate ((enterAll 1 [entry]).length + 1) [])
      (by simp [entry]) (by simp [Nat.add_comm]) (fun later _ => empty _ later) 0 (by omega)
  rw [empty, List.append_nil] at complete
  calc ofConcrete tree = .node (SyntaxNode.ofConcrete none tree.label) entry.due := by
        rw [ofConcrete, Tree.ofParents, complete]
        simp [entry]
    _ = convert none tree := (convert_eq none tree).symm

/-! ## What every node has to be -/

/-- The members in a list of concrete trees: trivia go with all that is below them, the children of
a wrapper take its place, and everything else stays. -/
inductive Spliced : List ConcreteTree → List ConcreteTree → Prop where
  | nil : Spliced [] []
  | trivia {child rest members} (dropped : child.label.isTrivia = true)
      (later : Spliced rest members) : Spliced (child :: rest) members
  | wrapper {child rest inner members} (notDropped : child.label.isTrivia = false)
      (wraps : child.label.isWrapper = true) (inside : Spliced child.children inner)
      (later : Spliced rest members) : Spliced (child :: rest) (inner ++ members)
  | member {child rest members} (notDropped : child.label.isTrivia = false)
      (stays : child.label.isWrapper = false) (later : Spliced rest members) :
      Spliced (child :: rest) (child :: members)

/-- What the node of a concrete node has to hold when it is listed below a node of the given
kind. -/
structure Describes (parent : Option Kind) (source : ConcreteNode) (node : SyntaxNode) : Prop where
  semicolon : source.type = ";" →
    node.kind = if parent = some .compilationUnit ∨
      parent = some .slist then .emptyStat else .semi
  block : source.type = "block" →
    node.kind = if parent = some .objBlock then .instanceInit else .slist
  listed : source.type ≠ ";" → source.type ≠ "block" →
    node.kind = (Kind.table.lookup source.type).getD .other
  typeName : node.typeName = source.type
  line : node.line = source.start.row + 1
  column : node.column = source.start.column + 1

/-- A place holds the conversion of a concrete tree that is listed below a node of the given kind:
the node is described by the concrete one, and its children hold, one by one and in order, the
conversions of the members, each with the place as its parent and its position as its index. -/
inductive Converts : Option Kind → ConcreteTree → Place → Prop where
  | node {parent source place members} (described : Describes parent source.label place.label)
      (spliced : Spliced source.children members)
      (count : place.children.length = members.length)
      (linked : ∀ (position : Nat) (child : Place), place.children[position]? = some child →
        child.parent = some place ∧ child.index = position)
      (converted : ∀ (position : Nat) (child : Place) (member : ConcreteTree),
        place.children[position]? = some child → members[position]? = some member →
          Converts (some place.label.kind) member child) :
      Converts parent source place

/-- The relation and the recursion agree on the members. -/
theorem eq_membersOf_of_spliced (trees members : List ConcreteTree)
    (spliced : Spliced trees members) :
    members = ConcreteTree.membersOf trees := by
  induction spliced with
  | nil => rfl
  | @trivia child rest members dropped later inductionHypothesis =>
    obtain ⟨label, children⟩ := child
    have : label.isTrivia = true := dropped
    simp [ConcreteTree.membersOf, ConcreteTree.contribution, this, inductionHypothesis]
  | @wrapper child rest inner members notDropped wraps inside later insideHypothesis
      laterHypothesis =>
    obtain ⟨label, children⟩ := child
    have : label.isTrivia = false := notDropped
    have : label.isWrapper = true := wraps
    simp_all [ConcreteTree.membersOf, ConcreteTree.contribution, Tree.children]
  | @member child rest members notDropped stays later inductionHypothesis =>
    obtain ⟨label, children⟩ := child
    have : label.isTrivia = false := notDropped
    have : label.isWrapper = false := stays
    simp_all [ConcreteTree.membersOf, ConcreteTree.contribution]

theorem spliced_membersOf : ∀ trees : List ConcreteTree,
    Spliced trees (ConcreteTree.membersOf trees)
  | [] => .nil
  | .node label children :: rest => by
    have inside := spliced_membersOf children
    have later := spliced_membersOf rest
    rw [ConcreteTree.membersOf, ConcreteTree.contribution]
    split
    case isTrue dropped => exact .trivia dropped later
    case isFalse kept =>
      have kept : label.isTrivia = false := by simpa using kept
      split
      case isTrue wraps => exact .wrapper kept wraps inside later
      case isFalse stays =>
        have stays : label.isWrapper = false := by simpa using stays
        exact .member kept stays later

/-- The description fixes the node. -/
theorem describes_iff (parent : Option Kind) (source : ConcreteNode) (node : SyntaxNode) :
    Describes parent source node ↔ node = .ofConcrete parent source := by
  constructor
  · rintro ⟨semicolon, block, listed, typeName, line, column⟩
    have kind : node.kind = .ofType source.type parent := by
      by_cases isSemicolon : source.type = ";"
      · rw [semicolon isSemicolon, isSemicolon]
        rfl
      · by_cases isBlock : source.type = "block"
        · rw [block isBlock, isBlock]
          rfl
        · rw [listed isSemicolon isBlock, Kind.ofType_eq_lookup _ _ isSemicolon isBlock]
    obtain ⟨_, _, _, _⟩ := node
    simp_all [SyntaxNode.ofConcrete]
  · rintro rfl
    refine ⟨?_, ?_, fun notSemicolon notBlock => ?_, rfl, rfl, rfl⟩
    · intro isSemicolon
      rw [SyntaxNode.ofConcrete, isSemicolon]
      rfl
    · intro isBlock
      rw [SyntaxNode.ofConcrete, isBlock]
      rfl
    · exact Kind.ofType_eq_lookup _ _ notSemicolon notBlock

/-- A place that holds a conversion holds the result of the recursion. -/
theorem focus_of_converts (parent : Option Kind) (source : ConcreteTree) (place : Place)
    (holds : Converts parent source place) : place.focus = convert parent source := by
  induction holds with
  | @node parent source place members described spliced count linked converted
      inductionHypothesis =>
    have label := (describes_iff parent source.label place.label).mp described
    have below : place.focus.children = members.map (convert (some place.label.kind)) := by
      rw [← Cursor.map_focus_children]
      apply List.ext_getElem
      · simp [count]
      · intro position inside other
        have insideMembers : position < members.length := by simpa using other
        simp only [List.getElem_map]
        have insideChildren : position < place.children.length := by simpa using inside
        exact inductionHypothesis position _ _ (List.getElem?_eq_getElem insideChildren)
          (List.getElem?_eq_getElem insideMembers)
    rw [convert_eq]
    have shape : place.focus = .node place.focus.label place.focus.children := by
      obtain ⟨⟨_, _⟩, _⟩ := place
      rfl
    rw [shape, below, eq_membersOf_of_spliced _ _ spliced]
    change Tree.node place.label _ = _
    rw [label]
    rfl

/-- Every place with the result of the recursion holds a conversion. -/
theorem converts_of_focus (parent : Option Kind) (source : ConcreteTree) (place : Place)
    (made : place.focus = convert parent source) : Converts parent source place := by
  induction place using Cursor.children_induction generalizing parent source with
  | step place inductionHypothesis =>
    have label : place.label = .ofConcrete parent source.label := by
      rw [Cursor.label, made, convert_eq]
      rfl
    have below : place.children.map Cursor.focus =
        source.members.map (convert (some place.label.kind)) := by
      rw [Cursor.map_focus_children, made, convert_eq, label]
      rfl
    refine .node ((describes_iff _ _ _).mpr label) (spliced_membersOf source.children) ?_
      (fun position child found => Cursor.parent_and_index_of_child place child position found) ?_
    · change place.children.length = source.members.length
      simpa using congrArg List.length below
    · intro position child member found listed
      apply inductionHypothesis child (List.mem_of_getElem? found)
      have same := congrArg (fun trees => trees[position]?) below
      have listed : source.members[position]? = some member := listed
      simpa [found, listed] using same

/-- The syntax tree whose root, listed below nothing, holds the conversion of a concrete tree is the
one that the worklist makes. -/
theorem converts_top_iff (tree : ConcreteTree) (candidate : SyntaxTree) :
    Converts none tree (Cursor.top candidate) ↔ candidate = ofConcrete tree := by
  rw [ofConcrete_eq]
  constructor
  · exact focus_of_converts none tree (Cursor.top candidate)
  · exact converts_of_focus none tree (Cursor.top candidate)

end SyntaxTree

end StraySemicolon

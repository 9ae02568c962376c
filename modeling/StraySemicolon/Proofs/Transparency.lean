import Mathlib.Logic.Relation
import StraySemicolon.Lint
import StraySemicolon.Proofs.Conversion

/-!
# What a syntax tree does not show

Comments, missing tokens and wrappers leave no trace in the syntax tree, and nothing else of the
structure is lost. `ConcreteTree.erase` takes exactly these away, together with byte offsets and the
mark of a missing token. What is left has no kinds and no lines counted from 1, but the syntax tree
can be computed from it (`SyntaxTree.tag`), and it can be read off the syntax tree again
(`SyntaxNode.mark`). Two concrete trees therefore have the same syntax tree exactly if the same is
left of them.

An edit that puts trivia anywhere below the root, or puts a wrapper around some neighbouring
children, changes nothing of what is left. So it changes neither the syntax tree nor what a lint run
reports, and the same holds for any number of such edits made or undone.
-/

namespace StraySemicolon

/-- What is left of a concrete node: its rule and where it begins. -/
structure Mark where
  type : String
  start : Point
deriving DecidableEq

/-- What is left of a concrete node. -/
def ConcreteNode.mark (node : ConcreteNode) : Mark :=
  ⟨node.type, node.start⟩

/-- What is left of a concrete node, read off its syntax node. -/
def SyntaxNode.mark (node : SyntaxNode) : Mark :=
  ⟨node.typeName, ⟨node.line - 1, node.column - 1⟩⟩

namespace ConcreteTree

mutual

/-- What is left of a tree below the root: nothing of trivia, of a wrapper what is left of its
children, and otherwise the node with what is left below it. -/
def eraseChild : ConcreteTree → List (Tree Mark)
  | .node label children =>
    if label.isTrivia then []
    else if label.isWrapper then eraseAll children
    else [.node label.mark (eraseAll children)]

/-- What is left of a list of children. -/
def eraseAll : List ConcreteTree → List (Tree Mark)
  | [] => []
  | child :: rest => eraseChild child ++ eraseAll rest

end

/-- A concrete tree without trivia and wrappers below the root, without byte offsets, and without
the mark of missing tokens. The root stays whatever it is. -/
def erase (tree : ConcreteTree) : Tree Mark :=
  .node tree.label.mark (eraseAll tree.children)

theorem eraseAll_append (first second : List ConcreteTree) :
    eraseAll (first ++ second) = eraseAll first ++ eraseAll second := by
  induction first with
  | nil => rfl
  | cons child rest inductionHypothesis => simp [eraseAll, inductionHypothesis]

end ConcreteTree

/-! ## There and back -/

namespace SyntaxTree

/-- Counting lines and columns from 1 loses nothing. -/
theorem mark_ofConcrete (parent : Option Kind) (node : ConcreteNode) :
    (SyntaxNode.ofConcrete parent node).mark = node.mark := by
  simp [SyntaxNode.ofConcrete, SyntaxNode.mark, ConcreteNode.mark]

mutual

theorem mapAll_mark_contribution (parent : Kind) : ∀ tree : ConcreteTree,
    Tree.mapAll SyntaxNode.mark (contribution parent tree) = ConcreteTree.eraseChild tree
  | .node label children => by
    have inner (kind : Kind) := mapAll_mark_below kind children
    rw [contribution, ConcreteTree.eraseChild]
    split
    · rfl
    · split
      · exact inner parent
      · rw [Tree.mapAll, Tree.map, inner, mark_ofConcrete]
        rfl

/-- The syntax trees below a node show what is left of the concrete children. -/
theorem mapAll_mark_below (parent : Kind) : ∀ trees : List ConcreteTree,
    Tree.mapAll SyntaxNode.mark (below parent trees) = ConcreteTree.eraseAll trees
  | [] => rfl
  | child :: rest => by
    rw [below, ConcreteTree.eraseAll, Tree.mapAll_append, mapAll_mark_contribution parent child,
      mapAll_mark_below parent rest]

end

/-- The syntax tree shows what is left of the concrete tree. -/
theorem map_mark_convert (parent : Option Kind) (tree : ConcreteTree) :
    (convert parent tree).map SyntaxNode.mark = tree.erase := by
  rw [convert, Tree.map, mapAll_mark_below, mark_ofConcrete]
  rfl

mutual

/-- The syntax tree of what is left of a concrete tree, listed below a node of the given kind. -/
def tag (parent : Option Kind) : Tree Mark → SyntaxTree
  | .node mark children =>
    let kind := Kind.ofType mark.type parent
    .node ⟨kind, mark.type, mark.start.row + 1, mark.start.column + 1⟩ (tagAll kind children)

/-- The syntax trees of what is left of a list of children. -/
def tagAll (parent : Kind) : List (Tree Mark) → List SyntaxTree
  | [] => []
  | child :: rest => tag (some parent) child :: tagAll parent rest

end

theorem tagAll_append (parent : Kind) (first second : List (Tree Mark)) :
    tagAll parent (first ++ second) = tagAll parent first ++ tagAll parent second := by
  induction first with
  | nil => rfl
  | cons child rest inductionHypothesis => simp [tagAll, inductionHypothesis]

mutual

theorem tagAll_eraseChild (parent : Kind) : ∀ tree : ConcreteTree,
    tagAll parent (ConcreteTree.eraseChild tree) = contribution parent tree
  | .node label children => by
    have inner (kind : Kind) := tagAll_eraseAll kind children
    rw [contribution, ConcreteTree.eraseChild]
    split
    · rfl
    · split
      · exact inner parent
      · rw [tagAll, tag, inner]
        rfl

/-- The kinds below a node follow from what is left of the concrete children. -/
theorem tagAll_eraseAll (parent : Kind) : ∀ trees : List ConcreteTree,
    tagAll parent (ConcreteTree.eraseAll trees) = below parent trees
  | [] => rfl
  | child :: rest => by
    rw [below, ConcreteTree.eraseAll, tagAll_append, tagAll_eraseChild parent child,
      tagAll_eraseAll parent rest]

end

/-- The syntax tree follows from what is left of the concrete tree. -/
theorem tag_erase (parent : Option Kind) (tree : ConcreteTree) :
    tag parent tree.erase = convert parent tree := by
  rw [ConcreteTree.erase, tag, tagAll_eraseAll]
  rfl

/-- Nothing but trivia, wrappers, byte offsets and the mark of missing tokens is lost. -/
theorem ofConcrete_eq_iff (tree other : ConcreteTree) :
    ofConcrete tree = ofConcrete other ↔ tree.erase = other.erase := by
  rw [ofConcrete_eq, ofConcrete_eq]
  constructor
  · intro same
    rw [← map_mark_convert none tree, same, map_mark_convert]
  · intro same
    rw [← tag_erase none tree, same, tag_erase]

end SyntaxTree

/-! ## Edits that do not show -/

namespace ConcreteTree

/-- An edit of the children of one node that adds something without structure. -/
inductive Padding : List ConcreteTree → List ConcreteTree → Prop where
  /-- Trivia are put between two children, with all that is below them. -/
  | trivia (before after : List ConcreteTree) (added : ConcreteTree)
      (isTrivia : added.label.isTrivia = true) :
      Padding (before ++ after) (before ++ added :: after)
  /-- A run of children is put into a wrapper that is not missing. -/
  | wrapper (before run after : List ConcreteTree) (node : ConcreteNode)
      (wraps : node.isWrapper = true) (present : node.missing = false) :
      Padding (before ++ run ++ after) (before ++ .node node run :: after)

/-- One such edit at any node of a tree. -/
inductive Padded : ConcreteTree → ConcreteTree → Prop where
  | below (place : Cursor ConcreteNode) (children : List ConcreteTree)
      (edit : Padding place.focus.children children) :
      Padded place.tree (⟨.node place.label children, place.above⟩ : Cursor ConcreteNode).tree

/-- A wrapper is no comment, so it is trivia only if it is missing. -/
theorem isTrivia_of_isWrapper (node : ConcreteNode) (wraps : node.isWrapper = true)
    (present : node.missing = false) : node.isTrivia = false := by
  have type : node.type = "enum_body_declarations" := by
    simpa [ConcreteNode.isWrapper, ConcreteNode.wrapperTypes] using wraps
  rw [ConcreteNode.isTrivia, present, type]
  rfl

theorem eraseAll_eq_of_padding (children padded : List ConcreteTree)
    (edit : Padding children padded) :
    eraseAll children = eraseAll padded := by
  cases edit with
  | trivia before after added isTrivia =>
    obtain ⟨label, below⟩ := added
    have isTrivia : label.isTrivia = true := isTrivia
    simp [eraseAll_append, eraseAll, eraseChild, isTrivia]
  | wrapper before run after node wraps present =>
    have notTrivia := isTrivia_of_isWrapper node wraps present
    simp [eraseAll_append, eraseAll, eraseChild, wraps, notTrivia]

/-- What is left of a whole tree depends on the children of a node only by what is left of these. -/
theorem erase_treeAbove (above : List (Frame ConcreteNode)) (label : ConcreteNode)
    (children changed : List ConcreteTree) (same : eraseAll children = eraseAll changed) :
    erase (Cursor.treeAbove (.node label children) above) =
      erase (Cursor.treeAbove (.node label changed) above) := by
  induction above generalizing label children changed with
  | nil => exact congrArg (Tree.node label.mark) same
  | cons frame above inductionHypothesis =>
    apply inductionHypothesis
    simp only [eraseAll_append, eraseAll, eraseChild, same]

theorem erase_eq_of_padded (tree padded : ConcreteTree) (edit : Padded tree padded) :
    erase tree = erase padded := by
  cases edit with
  | below place children edit =>
    obtain ⟨⟨label, focus⟩, above⟩ := place
    exact erase_treeAbove above label focus children (eraseAll_eq_of_padding focus children edit)

/-- Nothing is left of any number of edits, made or undone. -/
theorem erase_eq_of_eqvGen (tree other : ConcreteTree) (edits : Relation.EqvGen Padded tree other) :
    erase tree = erase other := by
  induction edits with
  | rel tree padded edit => exact erase_eq_of_padded tree padded edit
  | refl tree => rfl
  | symm tree other _ inductionHypothesis => exact inductionHypothesis.symm
  | trans tree middle other _ _ first second => exact first.trans second

end ConcreteTree

/-- What a lint run reports depends on the concrete tree only by its syntax tree. -/
theorem outcome_lint_eq_of_root_eq (parsed other : Parsed) (names : Option (List String))
    (same : parsed.root = other.root) :
    (lint parsed names).outcome = (lint other names).outcome := by
  unfold lint
  rw [same]
  cases Check.resolve names <;> rfl

/-- Trivia, wrappers, byte offsets and the mark of missing tokens do not show in the syntax tree,
and everything else does. So trivia can be put anywhere below the root or taken away, and any run of
children can be put into a wrapper or taken out of it, as often as one likes: the syntax tree stays
the same, and so does what a lint run reports, for all checks that are asked for. -/
theorem ofConcrete_eq_iff_erase_eq_and_edits :
    (∀ tree other : ConcreteTree,
      SyntaxTree.ofConcrete tree = SyntaxTree.ofConcrete other ↔ tree.erase = other.erase) ∧
    ∀ (parsed other : Parsed) (names : Option (List String)),
      Relation.EqvGen ConcreteTree.Padded parsed.tree other.tree →
        SyntaxTree.ofConcrete parsed.tree = SyntaxTree.ofConcrete other.tree ∧
          (lint parsed names).outcome = (lint other names).outcome := by
  refine ⟨SyntaxTree.ofConcrete_eq_iff, ?_⟩
  intro parsed other names edits
  have same := (SyntaxTree.ofConcrete_eq_iff parsed.tree other.tree).mpr
    (ConcreteTree.erase_eq_of_eqvGen parsed.tree other.tree edits)
  exact ⟨same, outcome_lint_eq_of_root_eq parsed other names same⟩

/-- A concrete node of the given rule that begins in the given column. -/
def columnNode (type : String) (column : Int) : ConcreteNode :=
  ⟨type, ⟨0, column⟩, 0, 0, false⟩

/-- The concrete tree of `enum { X ; ; }` with the two semicolons as members of their own. -/
def plainEnum : ConcreteTree :=
  .node (columnNode "enum_body" 0) [.node (columnNode "\x7b" 0) [],
    .node (columnNode "enum_constant" 1) [], .node (columnNode ";" 2) [],
    .node (columnNode ";" 3) [], .node (columnNode "\x7d" 4) []]

/-- The same with a wrapper around the semicolons and a comment between them, and a semicolon in the
comment. -/
def paddedEnum : ConcreteTree :=
  .node (columnNode "enum_body" 0) [.node (columnNode "\x7b" 0) [],
    .node (columnNode "enum_constant" 1) [],
    .node (columnNode "enum_body_declarations" 2) [.node (columnNode ";" 2) [],
      .node (columnNode "line_comment" 2) [.node (columnNode ";" 2) []],
        .node (columnNode ";" 3) []],
    .node (columnNode "\x7d" 4) []]

/-- The semicolons of the wrapper stand in the body, and the comment is gone. -/
theorem ofConcrete_paddedEnum :
    SyntaxTree.ofConcrete paddedEnum = .node ⟨.objBlock, "enum_body", 1, 1⟩
      [.node ⟨.lcurly, "\x7b", 1, 1⟩ [], .node ⟨.enumConstantDef, "enum_constant", 1, 2⟩ [],
        .node ⟨.semi, ";", 1, 3⟩ [], .node ⟨.semi, ";", 1, 4⟩ [],
        .node ⟨.rcurly, "\x7d", 1, 5⟩ []] :=
  SyntaxTree.ofConcrete_eq paddedEnum

/-- The comment is taken out of the wrapper, then the semicolons are. -/
theorem edits_of_paddedEnum :
    Relation.EqvGen ConcreteTree.Padded paddedEnum plainEnum ∧
    SyntaxTree.ofConcrete paddedEnum = SyntaxTree.ofConcrete plainEnum ∧
    (lint ⟨paddedEnum, [], false⟩ none).outcome =
      (lint ⟨plainEnum, [], true⟩ none).outcome := by
  let semicolon (column : Int) : ConcreteTree := .node (columnNode ";" column) []
  let comment : ConcreteTree := .node (columnNode "line_comment" 2) [semicolon 2]
  let body : Cursor ConcreteNode := Cursor.top plainEnum
  let wrapped := (Cursor.top paddedEnum).follow [.first, .next, .next]
  let bare : Cursor ConcreteNode :=
    ⟨.node wrapped.label [semicolon 2, semicolon 3], wrapped.above⟩
  have commented : ConcreteTree.Padded bare.tree paddedEnum :=
    .below bare _ (.trivia [semicolon 2] [semicolon 3] comment rfl)
  have unwrapped : ConcreteTree.Padded plainEnum bare.tree :=
    .below body _ (.wrapper (plainEnum.children.take 2) [semicolon 2, semicolon 3]
      (plainEnum.children.drop 4) (columnNode "enum_body_declarations" 2) rfl rfl)
  have edits : Relation.EqvGen ConcreteTree.Padded paddedEnum plainEnum :=
    .trans _ bare.tree _ (.symm _ _ (.rel _ _ commented)) (.symm _ _ (.rel _ _ unwrapped))
  obtain ⟨same, outcome⟩ := ofConcrete_eq_iff_erase_eq_and_edits.2 ⟨paddedEnum, [], false⟩
    ⟨plainEnum, [], true⟩ none edits
  exact ⟨edits, same, outcome⟩

end StraySemicolon

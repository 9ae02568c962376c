import StraySemicolon.ConcreteTree
import StraySemicolon.Source.Token

/-!
# Pieces of Java source

Between two matching brackets, source is a row of pieces: tokens, bracketed groups and annotations.
A group is read before it is known what stands around it, once in each role that its surroundings
may give it; the surroundings choose. So every bracket is read once, from the inside out.
-/

namespace StraySemicolon.Source

/-- A stretch of source. -/
structure Span where
  start : Spot
  /-- The offset after the stretch. -/
  stop : Nat
deriving DecidableEq, Inhabited, Repr

/-- The bodies of the sorts of types. -/
inductive BodyForm where
  | classForm
  | interfaceForm
  | enumForm
  | annotationForm
deriving DecidableEq, Inhabited, Repr

/-- A bracketed group, read in every role. -/
structure Group where
  bracket : Bracket
  start : Spot
  /-- Where the closing bracket stands. -/
  last : Spot
  /-- The declarations and creations in it, read as statements and expressions. -/
  code : List ConcreteTree
  /-- What stands between the braces, read as the body of a class. -/
  classMembers : List ConcreteTree
  interfaceMembers : List ConcreteTree
  enumMembers : List ConcreteTree
  annotationMembers : List ConcreteTree
deriving Inhabited

/-- A piece of source between two brackets. -/
inductive Piece where
  | token (token : Token)
  | group (group : Group)
  /-- An annotation, with the creations in its arguments. -/
  | annotated (span : Span) (code : List ConcreteTree)
deriving Inhabited

/-- The stretch from the opening to the closing bracket. -/
def Group.span (group : Group) : Span :=
  ⟨group.start, group.last.offset + 1⟩

namespace Piece

/-- The stretch that a piece takes up. -/
def span : Piece → Span
  | .token lexed => ⟨lexed.start, lexed.stop⟩
  | .group inner => inner.span
  | .annotated span _ => span

/-- The declarations and creations in a piece, read as code. -/
def code : Piece → List ConcreteTree
  | .token _ => []
  | .group inner => inner.code
  | .annotated _ code => code

/-- The text of a word. -/
def word? : Piece → Option String
  | .token ⟨.word text, _, _⟩ => some text
  | _ => none

/-- The text of a symbol. -/
def symbol? : Piece → Option String
  | .token ⟨.symbol text, _, _⟩ => some text
  | _ => none

/-- Whether a piece is the given word. -/
def isWord (text : String) (piece : Piece) : Bool :=
  piece.word? == some text

/-- Whether a piece is the given symbol. -/
def isSymbol (text : String) (piece : Piece) : Bool :=
  piece.symbol? == some text

/-- Whether a piece is an annotation. -/
def isAnnotated : Piece → Bool
  | .annotated .. => true
  | _ => false

/-- The group of the given bracket. -/
def group? (bracket : Bracket) : Piece → Option Group
  | .group inner => if inner.bracket = bracket then some inner else none
  | _ => none

/-- Whether a piece is a group of the given bracket. -/
def isGroup (bracket : Bracket) (piece : Piece) : Bool :=
  (piece.group? bracket).isSome

end Piece

/-- The stretch from the first to the last of some pieces. -/
def Span.ofPieces (pieces : List Piece) : Span :=
  match pieces.head?, pieces.getLast? with
  | some first, some last => ⟨first.span.start, last.span.stop⟩
  | _, _ => default

/-- A node of a concrete tree that takes up a stretch of source. -/
def node (type : String) (span : Span) (children : List ConcreteTree) : ConcreteTree :=
  .node ⟨type, ⟨span.start.row, span.start.column⟩, span.start.offset, span.stop, false⟩
    children

/-- The node of a token of one byte. -/
def leaf (type : String) (spot : Spot) : ConcreteTree :=
  node type ⟨spot, spot.offset + 1⟩ []

/-- A brace of the given group with what stands between its braces, as the body of a type. -/
def Group.body (group : Group) (form : BodyForm) : ConcreteTree :=
  let (type, members) := match form with
    | .classForm => ("class_body", group.classMembers)
    | .interfaceForm => ("interface_body", group.interfaceMembers)
    | .enumForm => ("enum_body", group.enumMembers)
    | .annotationForm => ("annotation_type_body", group.annotationMembers)
  node type group.span (leaf "\x7b" group.start :: members ++ [leaf "\x7d" group.last])

/-- A block of statements, under the name of the rule that it is read by. -/
def Group.block (group : Group) (type : String) : ConcreteTree :=
  node type group.span (leaf "\x7b" group.start :: group.code ++ [leaf "\x7d" group.last])

/-! ## Annotations -/

/-- How much of an annotation has been read. -/
inductive AnnotationState where
  | outside
  /-- After `@` or a dot of the name. -/
  | naming (span : Span)
  /-- After a part of the name, so that arguments may follow. -/
  | named (span : Span)

namespace AnnotationState

/-- Takes a piece outside annotations. -/
def enter (piece : Piece) : List Piece × AnnotationState :=
  if piece.isSymbol "@" then ([], .naming piece.span) else ([piece], .outside)

/-- Takes a piece in any state. The result is the pieces completed by it. -/
def step : AnnotationState → Piece → List Piece × AnnotationState
  | .outside, piece => enter piece
  | .naming span, piece =>
    if piece.word?.isSome then ([], .named ⟨span.start, piece.span.stop⟩)
    else
      let after := enter piece
      (.annotated span [] :: after.1, after.2)
  | .named span, piece =>
    if piece.isSymbol "." then ([], .naming ⟨span.start, piece.span.stop⟩)
    else if piece.isGroup .round then
      ([.annotated ⟨span.start, piece.span.stop⟩ piece.code], .outside)
    else
      let after := enter piece
      (.annotated span [] :: after.1, after.2)

/-- What is left over at the end. -/
def finish : AnnotationState → List Piece
  | .outside => []
  | .naming span | .named span => [.annotated span []]

/-- Joins the tokens of every annotation, from a state on. -/
def joinFrom : AnnotationState → List Piece → List Piece
  | state, [] => state.finish
  | state, piece :: rest => (state.step piece).1 ++ joinFrom (state.step piece).2 rest

end AnnotationState

/-- The pieces with the tokens of every annotation joined: the sign, the dotted name, and the
arguments if there are any. -/
def joinAnnotations (pieces : List Piece) : List Piece :=
  AnnotationState.outside.joinFrom pieces

end StraySemicolon.Source

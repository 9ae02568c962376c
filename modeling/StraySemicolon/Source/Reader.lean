import StraySemicolon.Parser
import StraySemicolon.Source.Member

/-!
# The reader of Java source

The reader matches brackets and reads every group as soon as it is closed. It is meant for source
that a Java grammar accepts, and reports no errors. The tree that it hands over holds the
declarations of types, their bodies with every member, brace, comma and semicolon, and the `new`
expressions. Other statements and expressions have no nodes of their own; what they contain stands
below the nearest node that has one.
-/

namespace StraySemicolon.Source

/-- A group from its pieces, read in every role that its bracket allows. -/
def Group.ofPieces (bracket : Bracket) (start last : Spot) (pieces : List Piece) : Group :=
  let joined := joinAnnotations pieces
  let inBraces (found : Unit → List ConcreteTree) : List ConcreteTree :=
    if bracket = .brace then found () else []
  { bracket, start, last
    code := codeNodes joined
    classMembers := inBraces fun _ => members .classForm joined
    interfaceMembers := inBraces fun _ => members .interfaceForm joined
    enumMembers := inBraces fun _ => membersOfEnum joined
    annotationMembers := inBraces fun _ => members .annotationForm joined }

/-- A group that is not closed yet. -/
structure OpenGroup where
  bracket : Bracket
  start : Spot
  /-- The pieces before the group in reverse. -/
  outer : List Piece

/-- The state between two tokens. -/
structure ReaderState where
  /-- The pieces of the innermost open group in reverse. -/
  reversed : List Piece
  /-- The open groups, the innermost one first. -/
  opened : List OpenGroup

namespace ReaderState

/-- Closes the innermost open group, if there is one. -/
def close (state : ReaderState) (last : Spot) : ReaderState :=
  match state.opened with
  | [] => state
  | innermost :: opened =>
    let group := Group.ofPieces innermost.bracket innermost.start last state.reversed.reverse
    ⟨.group group :: innermost.outer, opened⟩

/-- Takes a token. -/
def step (state : ReaderState) (token : Token) : ReaderState :=
  match token.lexeme with
  | .opening bracket => ⟨[], ⟨bracket, token.start, state.reversed⟩ :: state.opened⟩
  | .closing _ => state.close token.start
  | _ => { state with reversed := .token token :: state.reversed }

end ReaderState

/-- The pieces of a whole source, brackets matched. -/
def pieces (source : Bytes) : List Piece :=
  ((Lexer.tokens source).foldl ReaderState.step ⟨[], []⟩).reversed.reverse

/-- The concrete tree of a source text. -/
def read (source : Bytes) : ConcreteTree :=
  let joined := joinAnnotations (pieces source)
  node "program" (Span.ofPieces joined) (codeNodes joined)

/-- The reader as a parser. It takes every source for well-formed. -/
def parser : Parser :=
  ⟨read, fun _ => false⟩

end StraySemicolon.Source


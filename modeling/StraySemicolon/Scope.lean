import StraySemicolon.SyntaxTree

/-!
# Scopes

Two questions about where a node lies. Both depend on the kinds of the enclosing nodes alone.
-/

namespace StraySemicolon

/-- Whether a search through enclosing kinds, from the inside out, meets an enum before any other
scope that has members of its own. -/
def reachesEnum : List Kind → Bool
  | [] => false
  | .enumDef :: _ => true
  | kind :: outer => if kind.isEnumBarrier then false else reachesEnum outer

namespace Place

/-- Whether a node lies in the body of an enum, possibly in the body of a constant, with no class,
interface, annotation, record or anonymous class in between. -/
def inEnumBlock (place : Place) : Bool :=
  reachesEnum place.enclosingKinds

/-- Whether no enclosing node is a type declaration. -/
def isOutermost (place : Place) : Bool :=
  !place.enclosingKinds.any Kind.isTypeDefinition

/-- Whether the node itself is a type declaration. -/
def isTypeDefinition (place : Place) : Bool :=
  place.kind.isTypeDefinition

end Place

end StraySemicolon

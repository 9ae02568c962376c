import StraySemicolon.Check
import StraySemicolon.Scope

/-!
# Semicolons after members

The check reports the semicolons of a type body that terminate nothing: one on its own, one after a
member that its own body closes, one after a nested type, and a second one after a field. The first
semicolon of an enum body ends the list of constants, also an empty one, and is left alone. So are
the empty statements of code and the semicolons after a type that no other type encloses.
-/

namespace StraySemicolon.MemberSemicolon

/-- The name of the check. -/
def name : String :=
  "UnnecessarySemicolonAfterTypeMemberDeclaration"

/-- The sort of finding. -/
def issueKind : String :=
  "unnecessary.semicolon"

/-- What the reader is told. -/
def message : String :=
  "Unnecessary semicolon."

/-- Whether a declaration ends in a semicolon of its own. -/
def endsInSemicolon (place : Place) : Bool :=
  match place.last with
  | some last => last.label.kind == .semi
  | none => false

/-- Whether nothing is left to terminate after the sibling before a semicolon. At the very start of
a body only the enclosing scope decides, for in an enum the semicolon ends an empty list of
constants. -/
def isRedundant (semicolon : Place) : Bool :=
  match semicolon.previous with
  | none => !semicolon.inEnumBlock
  | some previous =>
    let kind := previous.label.kind
    if kind = .semi then true
    else if kind = .lcurly then !semicolon.inEnumBlock
    else if kind.isSelfClosing then true
    else if kind.isTerminated then endsInSemicolon previous
    else if kind.isTypeDefinition then !Place.isOutermost previous
    else false

/-- Whether the node stands directly in the body of a type. -/
def inTypeBody (place : Place) : Bool :=
  place.enclosingKinds.head? == some .objBlock

/-- Whether a place is a semicolon that the check reports. -/
def reports (place : Place) : Bool :=
  place.kind == .semi && inTypeBody place && isRedundant place

/-- The issues of one place: one for a semicolon that terminates nothing. -/
def visit (place : Place) : List Issue :=
  if reports place then [.atNode issueKind place.label message] else []

/-- The check for semicolons after members. -/
def check : Check where
  name := name
  kinds := [.semi]
  visit := visit

end StraySemicolon.MemberSemicolon

import StraySemicolon.Source.Code

/-!
# Members of type bodies

A body is a row of members and stray semicolons. A member ends at its first pair of braces or at a
semicolon, whichever comes first; once an initial value or a default value has begun, only a
semicolon ends it. What a member is follows from what comes after its modifiers: a type keyword,
braces alone, a name with parameters, or else the names of a field.

The body of an enum begins with constants between commas. If a semicolon follows, it and the members
after it are wrapped in one node.
-/

namespace StraySemicolon.Source

/-- How far a member has been read. -/
structure MemberState where
  /-- The pieces so far in reverse. -/
  reversed : List Piece
  /-- Whether parameters have been met. -/
  parameters : Bool
  /-- Whether only a semicolon ends the member. -/
  untilSemicolon : Bool

/-- Before a member. -/
def MemberState.fresh : MemberState :=
  ⟨[], false, false⟩

/-- The state after a piece that does not end the member. -/
def MemberState.next (state : MemberState) (piece : Piece) : MemberState where
  reversed := piece :: state.reversed
  parameters := state.parameters || piece.isGroup .round
  untilSemicolon := state.untilSemicolon || piece.isSymbol "=" ||
    (piece.isWord "default" && state.parameters)

/-- Splits the pieces of a body after every member, from a state on. -/
def splitMembersFrom (state : MemberState) : List Piece → List (List Piece)
  | [] => if state.reversed.isEmpty then [] else [state.reversed.reverse]
  | piece :: rest =>
    if piece.isSymbol ";" || (piece.isGroup .brace && !state.untilSemicolon) then
      (piece :: state.reversed).reverse :: splitMembersFrom .fresh rest
    else splitMembersFrom (state.next piece) rest

/-- Splits the pieces of a body into members. -/
def splitMembers (pieces : List Piece) : List (List Piece) :=
  splitMembersFrom .fresh pieces

/-- The pieces after the modifiers. -/
def dropModifiers : List Piece → List Piece
  | [] => []
  | piece :: rest => if isModifier piece rest then dropModifiers rest else piece :: rest

/-- The pieces after a list of type parameters that is open to the given depth. -/
def dropAngles : Nat → List Piece → List Piece
  | 0, pieces => pieces
  | _, [] => []
  | depth + 1, piece :: rest =>
    if piece.isSymbol "<" then dropAngles (depth + 2) rest
    else if piece.isSymbol ">" then dropAngles depth rest
    else dropAngles (depth + 1) rest

/-- The pieces after the type parameters, if there are any. -/
def dropTypeParameters : List Piece → List Piece
  | [] => []
  | piece :: rest => if piece.isSymbol "<" then dropAngles 1 rest else piece :: rest

/-- What stands before the parameters, if there are parameters before any initial value. -/
def beforeParameters? (pieces : List Piece) : Option (List Piece) :=
  let head := pieces.takeWhile fun piece => !(piece.isGroup .round || piece.isSymbol "=")
  match (pieces.drop head.length).head? with
  | some piece => if piece.isGroup .round then some head else none
  | none => none

/-- The rule that a member with parameters is read by. A constructor has nothing but a name
there. -/
def callableType (form : BodyForm) (head : List Piece) : String :=
  if form = .annotationForm then "annotation_type_element_declaration"
  else if (dropTypeParameters head).length ≤ 1 then "constructor_declaration"
  else "method_declaration"

/-- The rule that a field is read by. -/
def fieldType : BodyForm → String
  | .interfaceForm | .annotationForm => "constant_declaration"
  | .classForm | .enumForm => "field_declaration"

/-- The member that ends in braces. `head` is what stands before them. -/
def bracedMember (form : BodyForm) (span : Span) (head : List Piece) (braces : Group) :
    ConcreteTree :=
  let inner := head.flatMap Piece.code
  match dropModifiers head with
  | [] =>
    let block := braces.block "block"
    if head.isEmpty then block else node "static_initializer" span (inner ++ [block])
  | keyword :: rest =>
    match TypeRule.of? keyword rest with
    | some rule => node rule.type span (inner ++ [braces.body rule.form])
    | none =>
      match beforeParameters? (keyword :: rest) with
      | none =>
        node "compact_constructor_declaration" span (inner ++ [braces.block "block"])
      | some before =>
        let type := callableType form before
        let body := if type = "constructor_declaration" then "constructor_body" else "block"
        node type span (inner ++ [braces.block body])

/-- The member that ends in a semicolon, which may be all there is. -/
def terminatedMember (form : BodyForm) (span : Span) (head : List Piece) (semicolon : Span) :
    ConcreteTree :=
  let last := leaf ";" semicolon.start
  if head.isEmpty then last
  else
    let type := match beforeParameters? (dropModifiers head) with
      | none => fieldType form
      | some before => callableType form before
    node type span (codeNodes head ++ [last])

/-- The node of one member. -/
def member (form : BodyForm) (pieces : List Piece) : List ConcreteTree :=
  match pieces.getLast? with
  | none => []
  | some last =>
    let span := Span.ofPieces pieces
    match last.group? .brace with
    | some braces => [bracedMember form span pieces.dropLast braces]
    | none => [terminatedMember form span pieces.dropLast last.span]

/-- The members of a body. -/
def members (form : BodyForm) (pieces : List Piece) : List ConcreteTree :=
  (splitMembers pieces).flatMap (member form)

/-- The node of a constant, unless there are no pieces. -/
def constant (pieces : List Piece) : List ConcreteTree :=
  match pieces.getLast? with
  | none => []
  | some last =>
    let children := match last.group? .brace with
      | some braces => pieces.dropLast.flatMap Piece.code ++ [braces.body .classForm]
      | none => pieces.flatMap Piece.code
    [node "enum_constant" (Span.ofPieces pieces) children]

/-- The constants and commas of an enum body, after the given pieces in reverse. -/
def constantsFrom (reversed : List Piece) : List Piece → List ConcreteTree
  | [] => constant reversed.reverse
  | piece :: rest =>
    if piece.isSymbol "," then
      constant reversed.reverse ++ leaf "," piece.span.start :: constantsFrom [] rest
    else constantsFrom (piece :: reversed) rest

/-- What stands between the braces of an enum. -/
def membersOfEnum (pieces : List Piece) : List ConcreteTree :=
  let constants := pieces.takeWhile fun piece => !piece.isSymbol ";"
  let others := pieces.drop constants.length
  let declarations := match others with
    | [] => []
    | semicolon :: rest =>
      [node "enum_body_declarations" (Span.ofPieces others)
        (leaf ";" semicolon.span.start :: members .classForm rest)]
  constantsFrom [] constants ++ declarations

end StraySemicolon.Source

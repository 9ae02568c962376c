import StraySemicolon.Source.Piece

/-!
# Declarations and creations in code

Statements and expressions are read for what they contain: declarations of types, and `new`
expressions, whose class bodies have members too. Everything else about them is passed over; what
stands in their brackets was read before.

The reader is a machine over pieces. Type keywords are reserved, but for `record`, which begins a
declaration only where a name and then parameters follow. Modifiers and annotations belong to the
declaration after them and are held back until it is known whether there is one.
-/

namespace StraySemicolon.Source

/-- How the declaration of a type is read: its rule and the form of its body. -/
structure TypeRule where
  type : String
  form : BodyForm
deriving DecidableEq, Repr

/-- The rule of a declaration whose keyword is the given piece. `rest` is what follows the piece. -/
def TypeRule.of? (piece : Piece) (rest : List Piece) : Option TypeRule :=
  let named := rest.head?.any fun next => next.word?.isSome
  let afterName := rest.tail.head?
  match piece.word? with
  | some "class" => some ⟨"class_declaration", .classForm⟩
  | some "interface" => some ⟨"interface_declaration", .interfaceForm⟩
  | some "enum" => if named then some ⟨"enum_declaration", .enumForm⟩ else none
  | some "record" =>
    if named && afterName.any fun next => next.isGroup .round || next.isSymbol "<" then
      some ⟨"record_declaration", .classForm⟩
    else none
  | some _ => none
  | none =>
    if piece.isSymbol Lexer.annotationKeyword then
      some ⟨"annotation_type_declaration", .annotationForm⟩
    else none

/-- The words that modify the declaration after them. -/
def modifierWords : List String :=
  ["public", "protected", "private", "abstract", "static", "final", "strictfp", "default",
    "synchronized", "native", "transient", "volatile"]

/-- Whether a piece modifies what follows it. The word `sealed` does so only before another modifier
or a type keyword, and `non-sealed` is written with three pieces. -/
def isModifier (piece : Piece) (rest : List Piece) : Bool :=
  match piece with
  | .annotated .. => true
  | .group _ => false
  | .token _ =>
    match piece.word?, rest.head? with
    | some "sealed", some next =>
      next.isAnnotated ||
        next.word?.any fun word => (modifierWords ++ ["class", "interface"]).contains word
    | some "non", some next => next.isSymbol "-"
    | some word, _ => modifierWords.contains word
    | none, some next => piece.isSymbol "-" && next.isWord "sealed"
    | none, none => false

/-- What the machine is in the middle of. -/
inductive CodeState where
  /-- Between declarations and creations: the modifiers before this place, if any, with where they
  begin and what they contain, and the symbol just before. -/
  | plain (held : Option (Spot × List ConcreteTree)) (before : Option String)
  /-- After `new`, inside the type: the number of open angle brackets. -/
  | creating (start : Spot) (depth : Nat) (inner : List ConcreteTree)
  /-- After the arguments of `new`. -/
  | created (span : Span) (inner : List ConcreteTree)
  /-- In the head of the declaration of a type. -/
  | declaring (rule : TypeRule) (start : Spot) (inner : List ConcreteTree)

namespace CodeState

/-- The node of a `new` expression. -/
def creation (span : Span) (children : List ConcreteTree) : ConcreteTree :=
  node "object_creation_expression" span children

/-- Nothing held back and nothing just before. -/
def fresh : CodeState :=
  .plain none none

/-- Takes a piece between declarations and creations. -/
def enter (held : Option (Spot × List ConcreteTree)) (before : Option String) (piece : Piece)
    (rest : List Piece) : List ConcreteTree × CodeState :=
  let start := (held.map Prod.fst).getD piece.span.start
  let inner := (held.map Prod.snd).getD []
  let selected := before == some "."
  match if selected then none else TypeRule.of? piece rest with
  | some rule => ([], .declaring rule start inner)
  | none =>
    if piece.isWord "new" && before != some "::" then (inner, .creating piece.span.start 0 [])
    else if !selected && isModifier piece rest then
      ([], .plain (some (start, inner ++ piece.code)) none)
    else (inner ++ piece.code, .plain none piece.symbol?)

/-- Takes a piece in any state. `rest` is what follows the piece. The result is the nodes completed
by it. -/
def step (state : CodeState) (piece : Piece) (rest : List Piece) :
    List ConcreteTree × CodeState :=
  match state with
  | .plain held before => enter held before piece rest
  | .creating start depth inner =>
    let inner := inner ++ piece.code
    match piece with
    | .annotated .. => ([], .creating start depth inner)
    | .group group =>
      if depth ≠ 0 then ([], .creating start depth inner)
      else if group.bracket = .round then ([], .created ⟨start, piece.span.stop⟩ inner)
      else (inner, fresh)
    | .token _ =>
      match piece.symbol? with
      | none => ([], .creating start depth inner)
      | some "<" => ([], .creating start (depth + 1) inner)
      | some ">" => ([], .creating start (depth - 1) inner)
      | some symbol =>
        if [".", ",", "?", "&"].contains symbol then ([], .creating start depth inner)
        else
          let after := enter none none piece rest
          (inner ++ after.1, after.2)
  | .created span inner =>
    match piece.group? .brace with
    | some group =>
      ([creation ⟨span.start, piece.span.stop⟩ (inner ++ [group.body .classForm])], fresh)
    | none =>
      let after := enter none none piece rest
      (creation span inner :: after.1, after.2)
  | .declaring rule start inner =>
    match piece.group? .brace with
    | some group =>
      ([node rule.type ⟨start, piece.span.stop⟩ (inner ++ [group.body rule.form])], fresh)
    | none => ([], .declaring rule start (inner ++ piece.code))

/-- What is left over at the end. -/
def finish : CodeState → List ConcreteTree
  | .plain held _ => (held.map Prod.snd).getD []
  | .creating _ _ inner | .declaring _ _ inner => inner
  | .created span inner => [creation span inner]

/-- The nodes found in pieces, from a state on. -/
def nodesFrom (state : CodeState) : List Piece → List ConcreteTree
  | [] => state.finish
  | piece :: rest =>
    let after := state.step piece rest
    after.1 ++ nodesFrom after.2 rest

end CodeState

/-- The declarations and creations in the pieces of statements and expressions. -/
def codeNodes (pieces : List Piece) : List ConcreteTree :=
  CodeState.fresh.nodesFrom pieces

end StraySemicolon.Source

import StraySemicolon.Text.Utf8

/-!
# Tokens of Java source

Source bytes are cut into words, symbols, literals and brackets. Blanks and comments separate tokens
and leave no trace. Lines end at a line feed and nowhere else, and columns count bytes.

The lexer is a machine that takes one byte at a time and may look at the bytes that follow. Only the
distinctions that matter for finding declarations are made: keywords are words, and operators are
single symbols, except for the two that would be misread otherwise. A string literal may embed an
expression; the machine remembers the literals that are suspended while it reads one.
-/

namespace StraySemicolon.Source

/-- A place in the source bytes. -/
structure Spot where
  row : Nat
  column : Nat
  offset : Nat
deriving DecidableEq, Inhabited, Repr

/-- The place after a byte. -/
def Spot.advance (spot : Spot) (byte : UInt8) : Spot :=
  if byte = 10 then ⟨spot.row + 1, 0, spot.offset + 1⟩
  else ⟨spot.row, spot.column + 1, spot.offset + 1⟩

/-- The three sorts of brackets. -/
inductive Bracket where
  | round
  | square
  | brace
deriving DecidableEq, Inhabited, Repr

/-- What a token is. -/
inductive Lexeme where
  /-- A name, a keyword or a number. -/
  | word (text : String)
  /-- An operator or a separator. -/
  | symbol (text : String)
  /-- A character, string or text-block literal, or the part of one before an expression. -/
  | literal
  | opening (bracket : Bracket)
  | closing (bracket : Bracket)
deriving DecidableEq, Inhabited, Repr

/-- A token with its place. -/
structure Token where
  lexeme : Lexeme
  start : Spot
  /-- The offset after the token. -/
  stop : Nat
deriving DecidableEq, Inhabited, Repr

namespace Lexer

/-- The delimiters of literals. -/
inductive Quote where
  | character
  | string
  | textBlock
deriving DecidableEq, Repr

/-- What the machine is in the middle of. -/
inductive Mode where
  | code
  /-- A word, with its bytes so far in reverse. -/
  | word (start : Spot) (reversed : Bytes)
  | lineComment
  | blockComment
  | literal (quote : Quote)
deriving DecidableEq, Repr

/-- The state between two bytes. -/
structure State where
  mode : Mode
  /-- How many more bytes belong to what was already read. -/
  skip : Nat
  /-- The literals around the code being read, each with the number of braces open inside it. -/
  suspended : List (Quote × Nat)
deriving DecidableEq, Repr

/-- Whether a byte belongs to a word: a letter, a digit, `_`, `$`, or part of a character beyond
ASCII. -/
def isWordByte (byte : UInt8) : Bool :=
  (97 ≤ byte && byte ≤ 122) || (65 ≤ byte && byte ≤ 90) ||
    (48 ≤ byte && byte ≤ 57) || byte = 95 ||
    byte = 36 || 128 ≤ byte

/-- How many bytes after the first the blank at the head of the input has, if there is one. Blanks
are the characters with the Unicode property White_Space. -/
def blankTail? : Bytes → Option Nat
  | 0xC2 :: 0x85 :: _ => some 1
  | 0xC2 :: 0xA0 :: _ => some 1
  | 0xE1 :: 0x9A :: 0x80 :: _ => some 2
  | 0xE2 :: 0x80 :: byte :: _ =>
    if byte ≤ 0x8A || byte = 0xA8 || byte = 0xA9 || byte = 0xAF then some 2 else none
  | 0xE2 :: 0x81 :: 0x9F :: _ => some 2
  | 0xE3 :: 0x80 :: 0x80 :: _ => some 2
  | byte :: _ => if byte = 32 || (9 ≤ byte && byte ≤ 13) then some 0 else none
  | [] => none

/-- The bracket that a byte opens. -/
def opening? (byte : UInt8) : Option Bracket :=
  if byte = 40 then some .round
  else if byte = 91 then some .square
  else if byte = 123 then some .brace
  else none

/-- The bracket that a byte closes. -/
def closing? (byte : UInt8) : Option Bracket :=
  if byte = 41 then some .round
  else if byte = 93 then some .square
  else if byte = 125 then some .brace
  else none

/-- Counts a brace opened inside a suspended literal. -/
def openBrace : List (Quote × Nat) → List (Quote × Nat)
  | (quote, braces) :: rest => (quote, braces + 1) :: rest
  | [] => []

/-- A token of the given width. -/
def token (lexeme : Lexeme) (start : Spot) (width : Nat) : Token :=
  ⟨lexeme, start, start.offset + width⟩

/-- The token of a word. -/
def wordToken (start : Spot) (reversed : Bytes) : Token :=
  token (.word (String.ofList (Utf8.decode reversed.reverse))) start reversed.length

/-- The token that opens the declaration of an annotation type. -/
def annotationKeyword : String :=
  "@interface"

/-- Takes a byte of code that begins something. `rest` is what follows the byte. -/
def begin (suspended : List (Quote × Nat)) (spot : Spot) (byte : UInt8) (rest : Bytes) :
    List Token × State :=
  let stay (tokens : List Token) (skip : Nat) : List Token × State :=
    (tokens, ⟨.code, skip, suspended⟩)
  match blankTail? (byte :: rest), opening? byte, closing? byte with
  | some tail, _, _ => stay [] tail
  | none, some .brace, _ =>
    ([token (.opening .brace) spot 1], ⟨.code, 0, openBrace suspended⟩)
  | none, some bracket, _ => stay [token (.opening bracket) spot 1] 0
  | none, none, some .brace =>
    let after := match suspended with
      | (quote, 0) :: outer => ⟨.literal quote, 0, outer⟩
      | (quote, braces + 1) :: outer => ⟨.code, 0, (quote, braces) :: outer⟩
      | [] => ⟨.code, 0, []⟩
    ([token (.closing .brace) spot 1], after)
  | none, none, some bracket => stay [token (.closing bracket) spot 1] 0
  | none, none, none =>
    let following := rest.take 2
    if isWordByte byte then ([], ⟨.word spot [byte], 0, suspended⟩)
    else if byte = 47 ∧ following.head? = some 47 then ([], ⟨.lineComment, 1, suspended⟩)
    else if byte = 47 ∧ following.head? = some 42 then ([], ⟨.blockComment, 1, suspended⟩)
    else if byte = 34 ∧ following = [34, 34] then
      ([token .literal spot 3], ⟨.literal .textBlock, 2, suspended⟩)
    else if byte = 34 then ([token .literal spot 1], ⟨.literal .string, 0, suspended⟩)
    else if byte = 39 then ([token .literal spot 1], ⟨.literal .character, 0, suspended⟩)
    else if byte = 58 ∧ following.head? = some 58 then stay [token (.symbol "::") spot 2] 1
    else if (annotationKeyword.toUTF8.toList).isPrefixOf (byte :: rest) then
      stay [token (.symbol annotationKeyword) spot 10] 9
    else stay [token (.symbol (String.singleton (Char.ofNat byte.toNat))) spot 1] 0

/-- Takes a byte inside a literal. A backslash protects the byte after it, and in a string or a text
block it may open an embedded expression. -/
def insideLiteral (quote : Quote) (suspended : List (Quote × Nat)) (spot : Spot) (byte : UInt8)
    (rest : Bytes) : List Token × State :=
  if byte = 92 then
    if quote ≠ .character ∧ rest.head? = some 123 then
      ([token (.opening .brace) spot 2], ⟨.code, 1, (quote, 0) :: suspended⟩)
    else ([], ⟨.literal quote, 1, suspended⟩)
  else
    let stay : List Token × State := ([], ⟨.literal quote, 0, suspended⟩)
    match quote with
    | .character => if byte = 39 then ([], ⟨.code, 0, suspended⟩) else stay
    | .string => if byte = 34 then ([], ⟨.code, 0, suspended⟩) else stay
    | .textBlock =>
      if byte = 34 ∧ rest.take 2 = [34, 34] then ([], ⟨.code, 2, suspended⟩) else stay

/-- Takes a byte in any state. -/
def step (state : State) (spot : Spot) (byte : UInt8) (rest : Bytes) : List Token × State :=
  match state.skip with
  | skip + 1 => ([], { state with skip := skip })
  | 0 =>
    match state.mode with
    | .code => begin state.suspended spot byte rest
    | .word start reversed =>
      if isWordByte byte && (blankTail? (byte :: rest)).isNone then
        ([], { state with mode := .word start (byte :: reversed) })
      else
        let after := begin state.suspended spot byte rest
        (wordToken start reversed :: after.1, after.2)
    | .lineComment => ([], if byte = 10 then { state with mode := .code } else state)
    | .blockComment =>
      if byte = 42 ∧ rest.head? = some 47 then ([], { state with mode := .code, skip := 1 })
      else ([], state)
    | .literal quote => insideLiteral quote state.suspended spot byte rest

/-- The tokens of the bytes from a state on. -/
def tokensFrom (state : State) (spot : Spot) : Bytes → List Token
  | [] =>
    match state.mode with
    | .word start reversed => [wordToken start reversed]
    | _ => []
  | byte :: rest =>
    let after := step state spot byte rest
    after.1 ++ tokensFrom after.2 (spot.advance byte) rest

/-- A byte-order mark. -/
def byteOrderMark : Bytes :=
  [0xEF, 0xBB, 0xBF]

/-- The tokens of a source text. A byte-order mark at the very start is passed over; it takes up its
three columns all the same. -/
def tokens (source : Bytes) : List Token :=
  let skip := if byteOrderMark.isPrefixOf source then 3 else 0
  tokensFrom ⟨.code, skip, []⟩ ⟨0, 0, 0⟩ source

end Lexer

end StraySemicolon.Source

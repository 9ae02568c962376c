import StraySemicolon.ConcreteTree
import StraySemicolon.Text.Utf8

/-!
# Parsers

The grammar of sources is not part of this library. A parser knows it: of every source text,
well-formed or not, it hands over a concrete tree and says whether it met text that no rule accepts.
Whatever is done with source files is done for any parser.
-/

namespace StraySemicolon

/-- A parsed source text. -/
structure Parsed where
  tree : ConcreteTree
  source : Bytes
  /-- Whether the parser met text that no rule accepts. -/
  hasError : Bool

/-- What knows the grammar of sources. -/
structure Parser where
  /-- The concrete tree of a source text. -/
  tree : Bytes → ConcreteTree
  /-- Whether a source text has parts that no rule accepts. -/
  hasError : Bytes → Bool

/-- A source text with what a parser makes of it. -/
def Parser.parse (parser : Parser) (source : Bytes) : Parsed :=
  ⟨parser.tree source, source, parser.hasError source⟩

end StraySemicolon

import StraySemicolon.Text.Printable

/-!
# Quoted text

Text is shown between quotes on one line, so that it can be told from what stands around it. The
quote is the single one, unless the text has single quotes and no double ones. A backslash escapes
itself and the quote; line feed, carriage return and tab have letters; every other character that
cannot be printed is written by its code point in two, four or eight hexadecimal digits.
-/

namespace StraySemicolon.Quoted

/-- The quote around a text. -/
def delimiter (text : List Char) : Char :=
  if text.contains '\'' && !text.contains '"' then '"' else '\''

/-- The last `width` hexadecimal digits of a number, in lower case. -/
def hexDigits : Nat → Nat → List Char
  | 0, _ => []
  | width + 1, number => hexDigits width (number / 16) ++ [Nat.digitChar (number % 16)]

/-- A character that cannot be printed, by its code point. -/
def escapeCode (character : Char) : List Char :=
  if character.toNat < 0x100 then '\\' :: 'x' :: hexDigits 2 character.toNat
  else if character.toNat < 0x10000 then '\\' :: 'u' :: hexDigits 4 character.toNat
  else '\\' :: 'U' :: hexDigits 8 character.toNat

/-- One character between the given quotes. -/
def escape (quote character : Char) : List Char :=
  if character = quote ∨ character = '\\' then ['\\', character]
  else if character = '\n' then ['\\', 'n']
  else if character = '\r' then ['\\', 'r']
  else if character = '\t' then ['\\', 't']
  else if isPrintable character then [character]
  else escapeCode character

/-- A text between quotes. -/
def encode (text : List Char) : List Char :=
  let quote := delimiter text
  quote :: text.flatMap (escape quote) ++ [quote]

end StraySemicolon.Quoted

/-- The text between quotes, with everything escaped that cannot be printed. -/
def String.quoted (text : String) : String :=
  .ofList (StraySemicolon.Quoted.encode text.toList)

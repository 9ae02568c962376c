/-!
# UTF-8 with replacement

Bytes are read as UTF-8 in such a way that every byte string has a reading. The reading is a list of
segments. A segment is either the encoding of one character, or a damaged run of one to three bytes:
the longest run that could still have become a character, or a single byte that cannot begin one. A
damaged segment reads as one replacement character.

The reader is a machine that takes one byte at a time. Between characters it owes nothing; inside
one it knows how many continuation bytes are still owed and in which range the next one has to lie.
A byte that does not fit ends the damaged segment and is then taken afresh.
-/

namespace StraySemicolon

/-- A string of bytes. -/
abbrev Bytes := List UInt8

namespace Utf8

/-- One step of a reading. -/
inductive Segment where
  /-- A well-formed encoding and its character. -/
  | scalar (value : Char) (bytes : Bytes)
  /-- Bytes that are no encoding. -/
  | damaged (bytes : Bytes)
deriving DecidableEq, Repr

/-- The character shown for a damaged segment. -/
def replacement : Char :=
  '\uFFFD'

/-- The character a segment reads as. -/
def Segment.character : Segment → Char
  | .scalar value _ => value
  | .damaged _ => replacement

/-- The bytes a segment was read from. -/
def Segment.bytes : Segment → Bytes
  | .scalar _ bytes => bytes
  | .damaged bytes => bytes

/-- Where the machine stands between two bytes. -/
inductive State where
  /-- Between characters. -/
  | start
  /-- Inside a character: `owed + 1` continuation bytes are missing and the next one has to lie from
  `low` to `high`. The bytes `taken` so far contribute `value` to the code point. -/
  | inside (owed : Nat) (low high : UInt8) (value : Nat) (taken : Bytes)
deriving DecidableEq, Repr

/-- Takes a byte between characters. -/
def enter (byte : UInt8) : List Segment × State :=
  if byte < 0x80 then ([.scalar (Char.ofNat byte.toNat) [byte]], .start)
  else if byte < 0xC2 then ([.damaged [byte]], .start)
  else if byte < 0xE0 then ([], .inside 0 0x80 0xBF (byte.toNat - 0xC0) [byte])
  else if byte < 0xF0 then
    let low := if byte = 0xE0 then 0xA0 else 0x80
    let high := if byte = 0xED then 0x9F else 0xBF
    ([], .inside 1 low high (byte.toNat - 0xE0) [byte])
  else if byte < 0xF5 then
    let low := if byte = 0xF0 then 0x90 else 0x80
    let high := if byte = 0xF4 then 0x8F else 0xBF
    ([], .inside 2 low high (byte.toNat - 0xF0) [byte])
  else ([.damaged [byte]], .start)

/-- Takes a byte in any state. The result is what the byte completes and the state after it. -/
def step : State → UInt8 → List Segment × State
  | .start, byte => enter byte
  | .inside owed low high value taken, byte =>
    if low ≤ byte ∧ byte ≤ high then
      let value := value * 64 + (byte.toNat - 0x80)
      let taken := taken ++ [byte]
      match owed with
      | 0 => ([.scalar (Char.ofNat value) taken], .start)
      | owed + 1 => ([], .inside owed 0x80 0xBF value taken)
    else
      let after := enter byte
      (.damaged taken :: after.1, after.2)

/-- What is left over at the end of the bytes. -/
def finish : State → List Segment
  | .start => []
  | .inside _ _ _ _ taken => [.damaged taken]

/-- The segments of the bytes from a state on. -/
def segmentsFrom : State → Bytes → List Segment
  | state, [] => finish state
  | state, byte :: rest => (step state byte).1 ++ segmentsFrom (step state byte).2 rest

/-- The segments that bytes are read as. -/
def segments (bytes : Bytes) : List Segment :=
  segmentsFrom .start bytes

/-- The characters that bytes are read as. -/
def decode (bytes : Bytes) : List Char :=
  (segments bytes).map Segment.character

/-- The bytes of a text. -/
def encode (text : List Char) : Bytes :=
  text.flatMap String.utf8EncodeChar

end Utf8

/-- The bytes from one offset up to another. Offsets beyond the end stand for the end, and there are
no bytes when the range is empty or reversed. -/
def Bytes.slice (bytes : Bytes) (start stop : Nat) : Bytes :=
  (bytes.take stop).drop start

/-- The text of a range of bytes, read as UTF-8 with replacement. -/
def Bytes.text (bytes : Bytes) (start stop : Nat) : List Char :=
  Utf8.decode (bytes.slice start stop)

end StraySemicolon

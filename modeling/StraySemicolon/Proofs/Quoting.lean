import Mathlib.Algebra.GroupWithZero.Nat
import Mathlib.Tactic.SplitIfs
import StraySemicolon.Text.Quoted

/-!
# Reading quoted text back

`Quoted.decode` reads a quoted text, character by character, up to its closing quote. It undoes
`Quoted.encode` for every text: the closing quote is the first one without a backslash in front, a
backslash tells what follows it, and an escape by code point has as many digits as its letter says.

Nothing in a quoted text needs escaping again: all its characters can be printed.
-/

namespace StraySemicolon.Quoted

/-! ## The reader -/

/-- Where the reader stands inside a quoted text. -/
inductive Reading where
  /-- Between characters. -/
  | plain
  /-- After a backslash. -/
  | escape
  /-- In an escape by code point: `owed + 1` digits are missing, and those before them give
  `value`. -/
  | code (owed value : Nat)

/-- The value of a hexadecimal digit in lower case. -/
def hexValue (digit : Char) : Nat :=
  if digit.toNat < 0x3A then digit.toNat - 0x30 else digit.toNat - 0x57

/-- The character that a letter stands for after a backslash. All but three stand for themselves. -/
def letterValue (letter : Char) : Char :=
  if letter = 'n' then '\n' else if letter = 'r' then '\r'
    else if letter = 't' then '\t' else letter

/-- The digits that follow a letter after the first one, if it begins an escape by code point. -/
def furtherDigits (letter : Char) : Option Nat :=
  if letter = 'x' then some 1 else if letter = 'u' then some 3 else if letter = 'U' then some 7
  else none

/-- Reads up to the closing quote, which has to be the last character. -/
def read (quote : Char) : Reading → List Char → Option (List Char)
  | _, [] => none
  | .plain, character :: rest =>
    if character = quote then if rest = [] then some [] else none
    else if character = '\\' then read quote .escape rest
    else (read quote .plain rest).map (character :: ·)
  | .escape, letter :: rest =>
    match furtherDigits letter with
    | some owed => read quote (.code owed 0) rest
    | none => (read quote .plain rest).map (letterValue letter :: ·)
  | .code 0 value, digit :: rest =>
    (read quote .plain rest).map (Char.ofNat (value * 16 + hexValue digit) :: ·)
  | .code (owed + 1) value, digit :: rest =>
      read quote (.code owed (value * 16 + hexValue digit)) rest

/-- The text that a quoted text stands for. -/
def decode : List Char → Option (List Char)
  | [] => none
  | quote :: rest => if quote = '\'' ∨ quote = '"' then read quote .plain rest else none

/-! ## Escapes by code point -/

theorem hexValue_digitChar : ∀ digit < 16, hexValue (Nat.digitChar digit) = digit := by
  decide

theorem length_hexDigits (width number : Nat) : (hexDigits width number).length = width := by
  induction width generalizing number with
  | zero => rfl
  | succ width inductionHypothesis => simp [hexDigits, inductionHypothesis]

/-- The number that digits give. -/
def hexNumber (digits : List Char) (value : Nat) : Nat :=
  digits.foldl (fun number digit => number * 16 + hexValue digit) value

theorem hexNumber_hexDigits (width number : Nat) :
    hexNumber (hexDigits width number) 0 = number % 16 ^ width := by
  induction width generalizing number with
  | zero => simp [hexDigits, hexNumber, Nat.mod_one]
  | succ width inductionHypothesis =>
    have last := hexValue_digitChar (number % 16) (Nat.mod_lt _ (by decide))
    have before := inductionHypothesis (number / 16)
    rw [hexNumber] at before
    rw [hexDigits, hexNumber, List.foldl_append, before, List.foldl_cons, List.foldl_nil, last,
      Nat.pow_succ', Nat.mod_mul]
    omega

/-- As many digits as are owed give one character. -/
theorem read_code (quote : Char) (digits rest : List Char) (owed value : Nat)
    (length : digits.length = owed + 1) :
    read quote (.code owed value) (digits ++ rest) =
      (read quote .plain rest).map (Char.ofNat (hexNumber digits value) :: ·) := by
  induction owed generalizing digits value with
  | zero =>
    obtain ⟨digit, rfl⟩ := List.length_eq_one_iff.mp length
    rfl
  | succ owed inductionHypothesis =>
    obtain ⟨digit, further, rfl⟩ := List.exists_cons_of_length_eq_add_one length
    rw [List.cons_append, read, inductionHypothesis further _ (by simpa using length)]
    rfl

/-- An escape by code point is read as its character. -/
theorem read_escape_code (quote letter character : Char) (owed : Nat) (rest : List Char)
    (width : furtherDigits letter = some owed) (small : character.toNat < 16 ^ (owed + 1)) :
    read quote .escape (letter :: hexDigits (owed + 1) character.toNat ++ rest) =
      (read quote .plain rest).map (character :: ·) := by
  rw [List.cons_append, read, width]
  simp only
  rw [read_code quote _ rest owed 0 (length_hexDigits _ _), hexNumber_hexDigits,
    Nat.mod_eq_of_lt small, Char.ofNat_toNat]

/-! ## Reading undoes quoting -/

section

variable {quote : Char} (quoting : quote = '\'' ∨ quote = '"')

include quoting

/-- A backslash begins an escape. -/
theorem read_backslash (rest : List Char) :
    read quote .plain ('\\' :: rest) = read quote .escape rest := by
  rcases quoting with rfl | rfl <;> rfl

/-- A backslash with any letter that is not for digits is read as what the letter stands for. -/
theorem read_letter (letter : Char) (rest : List Char) (width : furtherDigits letter = none) :
    read quote .plain ('\\' :: letter :: rest) =
      (read quote .plain rest).map (letterValue letter :: ·) := by
  rw [read_backslash quoting, read, width]

theorem read_escapeCode (character : Char) (rest : List Char) :
    read quote .plain (escapeCode character ++ rest) =
      (read quote .plain rest).map (character :: ·) := by
  have valid : character.toNat < 0x110000 := by
    rcases character.valid with low | high
    · exact Nat.lt_trans low (by decide)
    · exact high.2
  rw [escapeCode]
  split
  · exact (read_backslash quoting _).trans
      (read_escape_code quote 'x' character 1 rest rfl (by omega))
  · split
    · exact (read_backslash quoting _).trans
        (read_escape_code quote 'u' character 3 rest rfl (by omega))
    · exact (read_backslash quoting _).trans
        (read_escape_code quote 'U' character 7 rest rfl (by omega))

/-- What is written for one character is read as this character. -/
theorem read_escape (character : Char) (rest : List Char) :
    read quote .plain (escape quote character ++ rest) =
      (read quote .plain rest).map (character :: ·) := by
  rw [escape]
  split_ifs with itself feed back tab printable
  · have width : furtherDigits character = none ∧ letterValue character = character := by
      rcases itself with rfl | rfl
      · rcases quoting with rfl | rfl <;> decide
      · decide
    have letter := read_letter quoting character rest width.1
    rwa [width.2] at letter
  · rw [feed]
    exact read_letter quoting 'n' rest rfl
  · rw [back]
    exact read_letter quoting 'r' rest rfl
  · rw [tab]
    exact read_letter quoting 't' rest rfl
  · rw [not_or] at itself
    rw [List.singleton_append, read, if_neg itself.1, if_neg itself.2]
  · exact read_escapeCode quoting character rest

theorem read_flatMap_escape (text : List Char) :
    read quote .plain (text.flatMap (escape quote) ++ [quote]) = some text := by
  induction text with
  | nil => simp [read]
  | cons character text inductionHypothesis =>
    rw [List.flatMap_cons, List.append_assoc, read_escape quoting, inductionHypothesis,
      Option.map_some]

end

theorem delimiter_eq (text : List Char) : delimiter text = '\'' ∨ delimiter text = '"' := by
  rw [delimiter]
  split
  · exact Or.inr rfl
  · exact Or.inl rfl

/-- Reading a quoted text gives the text. -/
theorem decode_encode (text : List Char) : decode (encode text) = some text := by
  have quoting := delimiter_eq text
  rw [encode, List.cons_append, decode, if_pos quoting]
  exact read_flatMap_escape quoting text

theorem encode_injective (text other : List Char) (same : encode text = encode other) :
    text = other := by
  have first := decode_encode text
  rw [same, decode_encode] at first
  exact (Option.some.inj first).symm

/-! ## Quoted text can be printed -/

theorem isPrintable_digitChar : ∀ digit < 16, isPrintable (Nat.digitChar digit) = true := by
  decide

theorem isPrintable_of_mem_hexDigits (width number : Nat) :
    ∀ digit ∈ hexDigits width number, isPrintable digit = true := by
  induction width generalizing number with
  | zero => simp [hexDigits]
  | succ width inductionHypothesis =>
    rw [hexDigits, List.forall_mem_append]
    refine ⟨inductionHypothesis _, ?_⟩
    rintro digit member
    obtain rfl := List.mem_singleton.mp member
    exact isPrintable_digitChar _ (Nat.mod_lt _ (by decide))

theorem isPrintable_of_mem_backslash (rest : List Char)
    (printable : ∀ other ∈ rest, isPrintable other = true) :
    ∀ other ∈ '\\' :: rest, isPrintable other = true :=
  List.forall_mem_cons.mpr ⟨by decide, printable⟩

theorem isPrintable_of_mem_escapeCode (character : Char) :
    ∀ other ∈ escapeCode character, isPrintable other = true := by
  have digits (width : Nat) := isPrintable_of_mem_hexDigits width character.toNat
  rw [escapeCode]
  split_ifs
  · exact isPrintable_of_mem_backslash _ (List.forall_mem_cons.mpr ⟨by decide, digits 2⟩)
  · exact isPrintable_of_mem_backslash _ (List.forall_mem_cons.mpr ⟨by decide, digits 4⟩)
  · exact isPrintable_of_mem_backslash _ (List.forall_mem_cons.mpr ⟨by decide, digits 8⟩)

theorem isPrintable_of_mem_escape (quote character : Char)
    (quoting : quote = '\'' ∨ quote = '"') :
    ∀ other ∈ escape quote character, isPrintable other = true := by
  rw [escape]
  split_ifs with itself feed back tab printable
  · have printable : isPrintable character = true := by
      rcases itself with rfl | rfl
      · rcases quoting with rfl | rfl <;> decide
      · decide
    exact isPrintable_of_mem_backslash _ (List.forall_mem_singleton.mpr printable)
  · exact isPrintable_of_mem_backslash _ (List.forall_mem_singleton.mpr (by decide))
  · exact isPrintable_of_mem_backslash _ (List.forall_mem_singleton.mpr (by decide))
  · exact isPrintable_of_mem_backslash _ (List.forall_mem_singleton.mpr (by decide))
  · exact List.forall_mem_singleton.mpr printable
  · exact isPrintable_of_mem_escapeCode character

/-- Every character of a quoted text can be printed. -/
theorem isPrintable_of_mem_encode (text : List Char) :
    ∀ character ∈ encode text, isPrintable character = true := by
  have quoting := delimiter_eq text
  have ends : isPrintable (delimiter text) = true := by
    rcases quoting with single | double
    · rw [single]
      decide
    · rw [double]
      decide
  intro character member
  rw [encode, List.cons_append, List.mem_cons, List.mem_append, List.mem_singleton,
    List.mem_flatMap] at member
  rcases member with rfl | ⟨own, -, inside⟩ | rfl
  · exact ends
  · exact isPrintable_of_mem_escape _ own quoting character inside
  · exact ends

end StraySemicolon.Quoted

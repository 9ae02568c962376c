import StraySemicolon.Lint
import StraySemicolon.Proofs.Quoting

/-!
# Lines that warn of text no rule accepts

Such a line shows where the text begins and its first forty characters. Whatever the source is, the
line stays one line, and it can be read back: two lines are the same only if they show the same.
-/

namespace StraySemicolon

/-! ## Numbers in lines -/

theorem isPrintable_of_ascii (character : Char) (first : 0x20 ≤ character.toNat)
    (last : character.toNat < 0x7F) : isPrintable character = true := by
  have gap (rest : List (Nat × Nat)) :
      Unprintable.covers ((0x0, 0x1F) :: (0x7F, 0xA0) :: rest) character.toNat = false := by
    rw [Unprintable.covers, if_neg (by omega), Unprintable.covers, if_pos last, Bool.or_false,
      decide_eq_false_iff_not]
    omega
  rw [isPrintable, if_pos (Nat.lt_trans last (by decide)), Unprintable.belowMyanmar, gap]
  rfl

theorem Nat.isDigit_of_mem_repr (number : Nat) (character : Char)
    (member : character ∈ number.repr.toList) : character.isDigit = true := by
  rw [Nat.toList_repr] at member
  exact Nat.isDigit_of_mem_toDigits (by decide) (by decide) member

/-- A number is written in digits, with a sign in front if it is negative. -/
theorem Int.mem_repr (number : Int) (character : Char) (member : character ∈ number.repr.toList) :
    character = '-' ∨ character.isDigit = true := by
  cases number with
  | ofNat natural => exact Or.inr (Nat.isDigit_of_mem_repr natural character member)
  | negSucc natural =>
    have written : (Int.negSucc natural).repr = "-" ++ natural.succ.repr := rfl
    rw [written, String.toList_append, List.mem_append] at member
    rcases member with sign | inside
    · exact Or.inl (by simpa using sign)
    · exact Or.inr (Nat.isDigit_of_mem_repr _ character inside)

/-- Nothing but digits and the sign occurs in a number. -/
theorem Int.not_mem_repr (number : Int) {mark : Char} (sign : mark ≠ '-')
    (digit : mark.isDigit = false) :
    mark ∉ number.repr.toList := by
  intro member
  rcases Int.mem_repr number mark member with same | same
  · exact sign same
  · simp [digit] at same

/-- Reads a natural number that is written in digits and in nothing else, such as a sign or an
underscore. -/
def readDigits (digits : List Char) : Option Nat :=
  if digits ≠ [] ∧ digits.all Char.isDigit then some (Nat.ofDigitChars 10 digits 0) else none

/-- Reads a number that is written in digits, with a sign in front if it is negative. -/
def readNumber : List Char → Option Int
  | '-' :: digits => (readDigits digits).map fun natural : Nat => -(natural : Int)
  | digits => (readDigits digits).map Int.ofNat

theorem readDigits_repr (number : Nat) : readDigits number.repr.toList = some number := by
  have digits : number.repr.toList.all Char.isDigit = true :=
    List.all_eq_true.mpr (Nat.isDigit_of_mem_repr number)
  rw [Nat.toList_repr] at digits ⊢
  rw [readDigits, if_pos ⟨Nat.toDigits_ne_nil, digits⟩, Nat.ofDigitChars_ten_toDigits]

/-- Reading a number that is written down gives the number. -/
theorem readNumber_repr (number : Int) : readNumber number.repr.toList = some number := by
  cases number with
  | ofNat natural =>
    have unsigned : '-' ∉ natural.repr.toList := by
      intro member
      exact absurd (Nat.isDigit_of_mem_repr natural _ member) (by decide)
    change readNumber natural.repr.toList = _
    rw [readNumber, readDigits_repr, Option.map_some]
    intro digits same
    exact unsigned (same ▸ List.mem_cons_self)
  | negSucc natural =>
    have written : (Int.negSucc natural).repr.toList = '-' :: natural.succ.repr.toList := by
      change ("-" ++ natural.succ.repr).toList = _
      rw [String.toList_append]
      rfl
    rw [written, readNumber, readDigits_repr, Option.map_some]
    rfl

/-- A mark splits a list in one way into what stands before its first occurrence and what stands
after. -/
theorem List.append_cons_eq_append_cons_iff {α : Type} {mark : α}
    {before other after others : List α} (first : mark ∉ before) (second : mark ∉ other) :
    before ++ mark :: after = other ++ mark :: others ↔ before = other ∧ after = others := by
  constructor
  · intro same
    induction before generalizing other with
    | nil =>
      cases other with
      | nil => exact ⟨rfl, (List.cons.inj same).2⟩
      | cons head tail =>
        obtain ⟨rfl, -⟩ := List.cons.inj same
        exact absurd List.mem_cons_self second
    | cons head tail inductionHypothesis =>
      cases other with
      | nil =>
        obtain ⟨rfl, -⟩ := List.cons.inj same
        exact absurd List.mem_cons_self first
      | cons head' tail' =>
        obtain ⟨rfl, rest⟩ := List.cons.inj same
        obtain ⟨rfl, rfl⟩ :=
          inductionHypothesis (fun member => first (List.mem_cons_of_mem _ member))
            (fun member => second (List.mem_cons_of_mem _ member)) rest
        exact ⟨rfl, rfl⟩
  · rintro ⟨rfl, rfl⟩
    rfl

/-- A number ends where a character follows that numbers do not have. -/
theorem Int.repr_append_cons_iff (number other : Int) (mark : Char) (rest others : List Char)
    (sign : mark ≠ '-') (digit : mark.isDigit = false) :
    number.repr.toList ++ mark :: rest = other.repr.toList ++ mark :: others ↔
      number = other ∧ rest = others := by
  rw [List.append_cons_eq_append_cons_iff (Int.not_mem_repr number sign digit)
    (Int.not_mem_repr other sign digit)]
  refine and_congr_left' ?_
  constructor
  · intro same
    have read := readNumber_repr number
    rw [same, readNumber_repr] at read
    exact (Option.some.inj read).symm
  · rintro rfl
    rfl

theorem Int.isPrintable_of_mem_repr (number : Int) :
    ∀ character ∈ number.repr.toList, isPrintable character = true := by
  intro character member
  rcases Int.mem_repr number character member with rfl | digit
  · decide
  · rw [Char.isDigit, Bool.and_eq_true, decide_eq_true_iff, decide_eq_true_iff] at digit
    exact isPrintable_of_ascii character (Nat.le_trans (by decide) digit.1)
      (Nat.lt_of_le_of_lt digit.2 (by decide))

/-! ## The lines -/

theorem TraceEvent.message_parseError (start : Point) (near : List Char) :
    (parseError start near).message =
      "parse error at " ++ (start.row + 1).repr ++ ":" ++ (start.column + 1).repr ++ " near " ++
        (String.ofList near).quoted :=
  rfl

/-- The characters of a warning, cut where the numbers end. -/
theorem TraceEvent.toList_message_parseError (start : Point) (near : List Char) :
    (parseError start near).message.toList =
      "parse error at ".toList ++ ((start.row + 1).repr.toList ++ ':' ::
        ((start.column + 1).repr.toList ++ ' ' :: ("near ".toList ++ Quoted.encode near))) := by
  have colon (rest : List Char) : ":".toList ++ rest = ':' :: rest := rfl
  have space (rest : List Char) : " near ".toList ++ rest = ' ' :: ("near ".toList ++ rest) := rfl
  rw [message_parseError, String.quoted]
  simp only [String.toList_append, String.toList_ofList, List.append_assoc,
    List.cons_append, colon, space]

theorem TraceEvent.message_parseError_inj (start other : Point) (near next : List Char) :
    (parseError start near).message = (parseError other next).message ↔
      start.row = other.row ∧ start.column = other.column ∧ near = next := by
  have quoted : Quoted.encode near = Quoted.encode next ↔ near = next :=
    ⟨Quoted.encode_injective near next, congrArg Quoted.encode⟩
  rw [← String.toList_inj, toList_message_parseError, toList_message_parseError,
    List.append_right_inj, Int.repr_append_cons_iff _ _ _ _ _ (by decide) (by decide),
    Int.repr_append_cons_iff _ _ _ _ _ (by decide) (by decide), List.append_right_inj, quoted,
    Int.add_left_inj, Int.add_left_inj]

theorem TraceEvent.isPrintable_of_mem_message (start : Point) (near : List Char) :
    ∀ character ∈ (parseError start near).message.toList, isPrintable character = true := by
  have opening : ∀ character ∈ "parse error at ".toList, isPrintable character = true := by
    simp
    decide
  have middle : ∀ character ∈ "near ".toList, isPrintable character = true := by
    simp
    decide
  rw [toList_message_parseError]
  simp only [List.forall_mem_append, List.forall_mem_cons]
  exact ⟨opening, Int.isPrintable_of_mem_repr _, by decide,
    Int.isPrintable_of_mem_repr _, by decide, middle, Quoted.isPrintable_of_mem_encode near⟩

/-- The characters that end a line: line feed, line tabulation, form feed, carriage return, the
information separators four to two, next line, and the separators of lines and of paragraphs. -/
def lineBreaks : List Char :=
  ['\n', '\x0B', '\x0C', '\r', '\x1C', '\x1D', '\x1E', '\x85', '\u2028', '\u2029']

theorem not_mem_lineBreaks_of_isPrintable (character : Char)
    (printable : isPrintable character = true) :
    character ∉ lineBreaks := by
  have none : lineBreaks.any isPrintable = false := rfl
  intro member
  exact List.any_eq_false.mp none character member printable

/-- A lint run warns of every node that no rule accepts in one line, all of it printable whatever
the source holds. After its place the line quotes the first forty characters of the node's text, and
reading the quoted text gives them back. Two warnings, also of different sources, are the same line
exactly if they show the same place and the same characters. -/
theorem warnings_one_line_and_unambiguous :
    (∀ (parsed : Parsed) (names : Option (List String)) (node : ConcreteNode),
      parsed.hasError = true → node ∈ parsed.tree.preorder → node.isError = true →
        parsed.parseError node ∈ (lint parsed names).trace ∧
        (∀ character ∈ (parsed.parseError node).message.toList,
          isPrintable character = true ∧ character ∉ lineBreaks) ∧
        ∃ quoted : String,
          (parsed.parseError node).message =
            s!"parse error at {node.start.row + 1}:{node.start.column + 1} near {quoted}" ∧
          Quoted.decode quoted.toList = some ((parsed.text node).take 40)) ∧
    (∀ (parsed other : Parsed) (node twin : ConcreteNode),
      (parsed.parseError node).message = (other.parseError twin).message ↔
        node.start.row = twin.start.row ∧ node.start.column = twin.start.column ∧
          (parsed.text node).take 40 = (other.text twin).take 40) := by
  refine ⟨?_, ?_⟩
  · intro parsed names node damaged member error
    refine ⟨?_, ?_, ?_⟩
    · have warned : parsed.parseError node ∈ parsed.parseErrors := by
        rw [Parsed.parseErrors, if_pos damaged]
        exact List.mem_map_of_mem (List.mem_filter.mpr ⟨member, error⟩)
      rw [lint]
      split
      · exact warned
      · exact List.mem_append_left _ (List.mem_append_left _ warned)
    · intro character inside
      have printable := TraceEvent.isPrintable_of_mem_message _ _ character inside
      exact ⟨printable, not_mem_lineBreaks_of_isPrintable character printable⟩
    · refine ⟨(String.ofList ((parsed.text node).take 40)).quoted, rfl, ?_⟩
      rw [String.quoted, String.toList_ofList, String.toList_ofList, Quoted.decode_encode]
  · intro parsed other node twin
    exact TraceEvent.message_parseError_inj node.start twin.start _ _

/-- The node of a source that no rule accepts at all. -/
def unacceptedNode (source : Bytes) : ConcreteNode :=
  ⟨"ERROR", ⟨2, 4⟩, 0, source.length, false⟩

/-- A source that no rule accepts at all. -/
def unacceptedSource (source : Bytes) : Parsed :=
  ⟨.node ⟨"program", ⟨0, 0⟩, 0, source.length, false⟩ [.node (unacceptedNode source) []],
    source, true⟩

/-- The warning of both quotes, a backslash, a line feed, a byte that is no text and a separator of
lines is one line. It differs from the warning of a source in which the separator is spelt out. -/
theorem warning_unacceptedSource :
    let source : Bytes := [0x27, 0x22, 0x5C, 0x0A, 0xFF, 0xE2, 0x80, 0xA8]
    let spelt : Bytes := [0x27, 0x22, 0x5C, 0x0A, 0xFF, 0x5C, 0x75, 0x32, 0x30, 0x32, 0x38]
    let warning := (unacceptedSource source).parseError (unacceptedNode source)
    warning ∈ (lint (unacceptedSource source) none).trace ∧
    (∀ character ∈ warning.message.toList,
      isPrintable character = true ∧ character ∉ lineBreaks) ∧
    (∃ quoted : String, warning.message = s!"parse error at 3:5 near {quoted}" ∧
      Quoted.decode quoted.toList = some ['\'', '"', '\\', '\n', '\uFFFD', '\u2028']) ∧
    warning.message ≠ ((unacceptedSource spelt).parseError (unacceptedNode spelt)).message := by
  intro source spelt warning
  obtain ⟨lines, same⟩ := warnings_one_line_and_unambiguous
  have member : unacceptedNode source ∈ (unacceptedSource source).tree.preorder := by
    simp [unacceptedSource, Tree.preorder, Tree.preorderAll, Tree.label, Tree.children]
  obtain ⟨warned, printable, quoted, shown, decoded⟩ :=
    lines (unacceptedSource source) none (unacceptedNode source) rfl member (by decide)
  have text : ((unacceptedSource source).text (unacceptedNode source)).take 40 =
      ['\'', '"', '\\', '\n', '\uFFFD', '\u2028'] := by decide
  rw [text] at decoded
  refine ⟨warned, printable, ⟨quoted, shown, decoded⟩, ?_⟩
  rw [Ne, same]
  decide

end StraySemicolon

import StraySemicolon.Lint
import StraySemicolon.Proofs.Encoding

/-!
# What bytes are read as

What the reader of bytes answers can be said without its machine. `Utf8.Reads` cuts bytes into
segments, each of which is the encoding of a character or damage. Damage stands where no encoding
does. It is the longest part there that could still have become an encoding, or a single byte.

The machine gives such a reading and there is no other one. All other facts come from the relation:
texts are read back without loss, and a reading can be cut before any byte that does not continue a
character.
-/

namespace StraySemicolon

namespace Utf8

/-! ## Readings -/

/-- Bytes that may be damage: a single one, or some that an encoding begins with. -/
def IsSubpart (bytes : Bytes) : Prop :=
  bytes.length = 1 ∨ bytes ≠ [] ∧ ∃ character, bytes <+: String.utf8EncodeChar character

/-- A run of damage with the bytes that follow it. No encoding stands there, and the run is the
longest one that may be damage. -/
structure IsDamage (run rest : Bytes) : Prop where
  illFormed : ∀ character, ¬ String.utf8EncodeChar character <+: run ++ rest
  subpart : IsSubpart run
  maximal : ∀ longer, longer <+: run ++ rest → IsSubpart longer → longer.length ≤ run.length

/-- The ways to cut bytes into encodings and damage. -/
inductive Reads : Bytes → List Segment → Prop
  /-- There is nothing to read. -/
  | nil : Reads [] []
  /-- An encoding stands in front. -/
  | scalar (character : Char) {rest : Bytes} {further : List Segment} : Reads rest further →
    Reads (String.utf8EncodeChar character ++ rest)
      (.scalar character (String.utf8EncodeChar character) :: further)
  /-- Damage stands in front. -/
  | damaged {run rest : Bytes} {further : List Segment} :
      IsDamage run rest → Reads rest further →
      Reads (run ++ rest) (.damaged run :: further)

theorem IsSubpart.ne_nil {bytes : Bytes} (subpart : IsSubpart bytes) : bytes ≠ [] := by
  rcases subpart with single | ⟨some, _⟩
  · exact List.ne_nil_of_length_eq_add_one single
  · exact some

/-- Of bytes that may be damage and have no encoding in front, none of which goes on with what
follows, nothing more is damage. -/
theorem isDamage_of_stop {run rest : Bytes} (subpart : IsSubpart run)
    (incomplete : ∀ character, ¬ String.utf8EncodeChar character <+: run)
    (stop : ∀ further, further ≠ [] → further <+: rest →
      ∀ character, ¬ run ++ further <+: String.utf8EncodeChar character) :
        IsDamage run rest where
  illFormed := by
    intro character front
    rcases List.prefix_or_prefix_of_prefix front (List.prefix_append run rest)
      with inside | ⟨further, whole⟩
    · exact incomplete character inside
    · rw [← whole, List.prefix_append_right_inj] at front
      have some : further ≠ [] := by
        rintro rfl
        rw [List.append_nil] at whole
        exact incomplete character (whole ▸ List.prefix_rfl)
      exact stop further some front character (whole ▸ List.prefix_rfl)
  subpart := subpart
  maximal := by
    intro longer front candidate
    by_contra exceeds
    obtain ⟨further, rfl⟩ :=
      List.prefix_of_prefix_length_le (List.prefix_append run rest) front (by omega)
    rw [List.prefix_append_right_inj] at front
    have some : further ≠ [] := by
      rintro rfl
      simp at exceeds
    rcases candidate with single | ⟨_, character, inside⟩
    · have first := List.length_pos_iff.mpr subpart.ne_nil
      have second := List.length_pos_iff.mpr some
      rw [List.length_append] at single
      omega
    · exact stop further some front character inside

theorem IsDamage.incomplete {run rest : Bytes} (damage : IsDamage run rest) (character : Char) :
    ¬ String.utf8EncodeChar character <+: run := fun front =>
  damage.illFormed character (front.trans (List.prefix_append run rest))

/-- No encoding goes on with damage and what follows it. -/
theorem IsDamage.stop {run rest : Bytes} (damage : IsDamage run rest) (further : Bytes)
    (some : further ≠ []) (front : further <+: rest) (character : Char) :
    ¬ run ++ further <+: String.utf8EncodeChar character := by
  intro continued
  have within := damage.maximal (run ++ further) ((List.prefix_append_right_inj run).mpr front)
    (Or.inr ⟨by simp [some], character, continued⟩)
  have longer := List.length_pos_iff.mpr some
  rw [List.length_append] at within
  omega

/-- Damage has one to three bytes. -/
theorem IsDamage.length_mem {run rest : Bytes} (damage : IsDamage run rest) :
    1 ≤ run.length ∧ run.length ≤ 3 := by
  refine ⟨List.length_pos_iff.mpr damage.subpart.ne_nil, ?_⟩
  rcases damage.subpart with single | ⟨_, character, inside⟩
  · omega
  · by_contra exceeds
    have most := Char.utf8Size_le_four character
    rw [← String.length_utf8EncodeChar] at most
    have whole := inside.eq_of_length_le (by omega)
    exact damage.incomplete character (whole ▸ List.prefix_rfl)

/-! ## The reading of the machine -/

/-- The bytes a state has taken without an answer. -/
def State.pending : State → Bytes
  | .start => []
  | .inside _ _ _ _ taken => taken

/-- What a state knows about the bytes it has taken. -/
def State.Sound : State → Prop
  | .start => True
  | .inside owed low high value taken => Expects owed low high value taken

/-- The bytes of a state inside a character are damage if nothing follows that fits. -/
theorem Expects.isDamage {owed : Nat} {low high : UInt8} {value : Nat} {taken : Bytes}
    (expects : Expects owed low high value taken) (rest : Bytes)
    (misfit : ∀ byte ∈ rest.head?, ¬ (low ≤ byte ∧ byte ≤ high)) :
    IsDamage taken rest := by
  refine isDamage_of_stop ?_ expects.incomplete ?_
  · obtain ⟨character, further, _, whole⟩ := expects.exists_encoding
    exact Or.inr ⟨expects.begun, character, whole ▸ List.prefix_append _ _⟩
  · rintro further some front character ⟨others, whole⟩
    obtain ⟨byte, more, rfl⟩ := List.exists_cons_of_ne_nil some
    obtain ⟨_, rfl⟩ := front
    rw [List.append_assoc, List.cons_append] at whole
    exact expects.ne_of_misfit byte (misfit byte rfl) character _ whole.symm

/-- What the machine answers to a byte between characters belongs in front of any reading of what it
has not answered yet. -/
theorem enter_sound (byte : UInt8) :
    (enter byte).2.Sound ∧ ∀ rest further, Reads ((enter byte).2.pending ++ rest) further →
      Reads (byte :: rest) ((enter byte).1 ++ further) := by
  rcases enter_cases byte
    with ⟨answer, whole⟩ | ⟨answer, none⟩ | ⟨owed, low, high, value, answer, expects⟩
  · rw [answer]
    refine ⟨trivial, ?_⟩
    intro rest further reads
    have scalar := Reads.scalar (Char.ofNat byte.toNat) reads
    rwa [whole] at scalar
  · rw [answer]
    refine ⟨trivial, ?_⟩
    intro rest further reads
    have damage : IsDamage [byte] rest := by
      refine isDamage_of_stop (Or.inl rfl) ?_ ?_
      · intro character front
        rcases List.prefix_cons_iff.mp front with empty | ⟨others, whole, _⟩
        · exact String.utf8EncodeChar_ne_nil empty
        · exact none character others whole
      · rintro more _ _ character ⟨others, whole⟩
        exact none character (more ++ others) whole.symm
    exact Reads.damaged damage reads
  · rw [answer]
    exact ⟨expects, fun rest further reads => reads⟩

/-- What the machine answers to a byte belongs in front of any reading of what it has not answered
yet. -/
theorem step_sound (state : State) (sound : state.Sound) (byte : UInt8) :
    (step state byte).2.Sound ∧
      ∀ rest further, Reads ((step state byte).2.pending ++ rest) further →
      Reads (state.pending ++ byte :: rest) ((step state byte).1 ++ further) := by
  cases state with
  | start => exact enter_sound byte
  | inside owed low high value taken =>
    by_cases fits : low ≤ byte ∧ byte ≤ high
    · cases owed with
      | zero =>
        rw [step, if_pos fits]
        refine ⟨trivial, ?_⟩
        intro rest further reads
        have scalar := Reads.scalar (Char.ofNat (value * 64 + (byte.toNat - 0x80))) reads
        rw [Expects.complete sound byte fits] at scalar
        simpa [State.pending] using scalar
      | succ owed =>
        rw [step, if_pos fits]
        refine ⟨Expects.next sound byte fits, ?_⟩
        intro rest further reads
        simpa [State.pending] using reads
    · rw [step, if_neg fits]
      obtain ⟨after, enters⟩ := enter_sound byte
      refine ⟨after, ?_⟩
      intro rest further reads
      have damage : IsDamage taken (byte :: rest) := by
        refine Expects.isDamage sound (byte :: rest) ?_
        rintro first ⟨⟩
        exact fits
      exact Reads.damaged damage (enters rest further reads)

/-- The machine reads what it has not answered yet and all bytes to come. -/
theorem reads_segmentsFrom (bytes : Bytes) (state : State) (sound : state.Sound) :
    Reads (state.pending ++ bytes) (segmentsFrom state bytes) := by
  induction bytes generalizing state with
  | nil =>
    cases state with
    | start => exact Reads.nil
    | inside owed low high value taken =>
      exact Reads.damaged (Expects.isDamage sound [] (by simp)) Reads.nil
  | cons byte rest inductionHypothesis =>
    obtain ⟨after, steps⟩ := step_sound state sound byte
    exact steps rest _ (inductionHypothesis (step state byte).2 after)

theorem reads_segments (bytes : Bytes) : Reads bytes (segments bytes) :=
  reads_segmentsFrom bytes .start trivial

/-! ## There is no other reading -/

/-- No encoding begins with another one. -/
theorem encode_prefix_free (character other : Char)
    (front : String.utf8EncodeChar character <+: String.utf8EncodeChar other) :
    character = other := by
  obtain ⟨rest, whole⟩ := front
  have first :=
    ByteArray.utf8DecodeChar?_utf8EncodeChar_append (b := rest.toByteArray) (c := character)
  have second := ByteArray.utf8DecodeChar?_utf8EncodeChar_append (b := ByteArray.empty) (c := other)
  rw [← List.toByteArray_append, whole] at first
  rw [ByteArray.append_empty, first] at second
  exact Option.some.inj second

/-- Of two runs of damage at the same place none is longer. -/
theorem IsDamage.unique {run rest other others : Bytes} (damage : IsDamage run rest)
    (again : IsDamage other others) (same : run ++ rest = other ++ others) :
    run = other ∧ rest = others := by
  have least := damage.maximal other (same ▸ List.prefix_append other others) again.subpart
  have most := again.maximal run (same ▸ List.prefix_append run rest) damage.subpart
  exact List.append_inj same (by omega)

/-- Nothing is read from no bytes. -/
theorem Reads.of_nil {segments : List Segment} (reads : Reads [] segments) : segments = [] := by
  generalize empty : ([] : Bytes) = bytes at reads
  cases reads with
  | nil => rfl
  | scalar character further =>
    exact absurd (List.append_eq_nil_iff.mp empty.symm).1 String.utf8EncodeChar_ne_nil
  | damaged damage further =>
    exact absurd (List.append_eq_nil_iff.mp empty.symm).1 damage.subpart.ne_nil

/-- A reading of bytes with an encoding in front begins with its character. -/
theorem Reads.of_encode {character : Char} {rest : Bytes} {segments : List Segment}
    (reads : Reads (String.utf8EncodeChar character ++ rest) segments) :
    ∃ further, Reads rest further ∧
      segments = .scalar character (String.utf8EncodeChar character) :: further := by
  generalize same : String.utf8EncodeChar character ++ rest = bytes at reads
  cases reads with
  | nil => exact absurd (List.append_eq_nil_iff.mp same).1 String.utf8EncodeChar_ne_nil
  | @scalar other others further reads =>
    have equal : character = other := by
      rcases List.prefix_or_prefix_of_prefix (same ▸ List.prefix_append _ rest)
        (List.prefix_append (String.utf8EncodeChar other) others) with front | front
      · exact encode_prefix_free character other front
      · exact (encode_prefix_free other character front).symm
    subst equal
    exact ⟨further, List.append_cancel_left same ▸ reads, rfl⟩
  | damaged damage reads =>
    exact absurd (same ▸ List.prefix_append _ rest) (damage.illFormed character)

/-- A reading of bytes with damage in front begins with this damage. -/
theorem Reads.of_damage {run rest : Bytes} {segments : List Segment} (damage : IsDamage run rest)
    (reads : Reads (run ++ rest) segments) :
    ∃ further, Reads rest further ∧ segments = .damaged run :: further := by
  generalize same : run ++ rest = bytes at reads
  cases reads with
  | nil => exact absurd (List.append_eq_nil_iff.mp same).1 damage.subpart.ne_nil
  | scalar character reads =>
    exact absurd (same ▸ List.prefix_append _ _) (damage.illFormed character)
  | @damaged other others further again reads =>
    obtain ⟨rfl, rfl⟩ := damage.unique again same
    exact ⟨further, reads, rfl⟩

theorem Reads.unique {bytes : Bytes} {one two : List Segment} (first : Reads bytes one)
    (second : Reads bytes two) : one = two := by
  induction first generalizing two with
  | nil => exact second.of_nil.symm
  | scalar character further inductionHypothesis =>
    obtain ⟨others, reads, rfl⟩ := second.of_encode
    rw [inductionHypothesis reads]
  | damaged damage further inductionHypothesis =>
    obtain ⟨others, reads, rfl⟩ := second.of_damage damage
    rw [inductionHypothesis reads]

/-- The machine gives the one reading there is. -/
theorem reads_iff (bytes : Bytes) (cut : List Segment) :
    Reads bytes cut ↔ cut = segments bytes := by
  constructor
  · intro reads
    exact reads.unique (reads_segments bytes)
  · rintro rfl
    exact reads_segments bytes

/-! ## Facts of all readings -/

/-- A reading cuts the bytes, it neither drops nor adds any. -/
theorem Reads.flatMap_bytes {bytes : Bytes} {cut : List Segment} (reads : Reads bytes cut) :
    cut.flatMap Segment.bytes = bytes := by
  induction reads with
  | nil => rfl
  | scalar character further inductionHypothesis =>
    rw [List.flatMap_cons, inductionHypothesis, Segment.bytes]
  | damaged damage further inductionHypothesis =>
    rw [List.flatMap_cons, inductionHypothesis, Segment.bytes]

/-- Encodings read as their characters. -/
theorem reads_encode (text : List Char) :
    Reads (encode text)
      (text.map fun character => .scalar character (String.utf8EncodeChar character)) := by
  induction text with
  | nil => exact Reads.nil
  | cons character text inductionHypothesis => exact Reads.scalar character inductionHypothesis

theorem decode_encode (text : List Char) : decode (encode text) = text := by
  rw [decode, ← (reads_iff _ _).mp (reads_encode text), List.map_map]
  exact List.map_id text

/-- No encoding goes on across a byte that does not continue a character. -/
theorem not_prefix_encode_across {run further rest : Bytes} (begun : run ≠ [])
    (some : further ≠ []) (front : further <+: rest)
    (fresh : ∀ byte ∈ rest.head?, ¬ IsContinuation byte) (character : Char) :
    ¬ run ++ further <+: String.utf8EncodeChar character := by
  obtain ⟨lead, before, rfl⟩ := List.exists_cons_of_ne_nil begun
  obtain ⟨byte, more, rfl⟩ := List.exists_cons_of_ne_nil some
  obtain ⟨others, rfl⟩ := front
  rintro ⟨after, whole⟩
  refine fresh byte rfl (isContinuation_of_mem_tail character lead _ whole.symm byte ?_)
  simp

/-- Damage stays damage if bytes follow that do not continue a character. -/
theorem IsDamage.append {run rest : Bytes} (damage : IsDamage run rest) (after : Bytes)
    (fresh : ∀ byte ∈ after.head?, ¬ IsContinuation byte) : IsDamage run (rest ++ after) := by
  refine isDamage_of_stop damage.subpart damage.incomplete ?_
  intro further some front character continued
  rcases List.prefix_or_prefix_of_prefix front (List.prefix_append rest after)
    with inside | ⟨across, rfl⟩
  · exact damage.stop further some inside character continued
  · rw [List.prefix_append_right_inj] at front
    by_cases none : across = []
    · rw [none, List.append_nil] at some continued
      exact damage.stop rest some List.prefix_rfl character continued
    · rw [← List.append_assoc] at continued
      have begun : run ++ rest ≠ [] := by simp [damage.subpart.ne_nil]
      exact not_prefix_encode_across begun none front fresh character continued

/-- What is read from bytes stays if bytes follow that do not continue a character. -/
theorem Reads.append {bytes after : Bytes} {cut further : List Segment} (reads : Reads bytes cut)
    (more : Reads after further) (fresh : ∀ byte ∈ after.head?, ¬ IsContinuation byte) :
    Reads (bytes ++ after) (cut ++ further) := by
  induction reads with
  | nil => exact more
  | scalar character reads inductionHypothesis =>
    rw [List.append_assoc]
    exact Reads.scalar character inductionHypothesis
  | damaged damage reads inductionHypothesis =>
    rw [List.append_assoc]
    exact Reads.damaged (damage.append after fresh) inductionHypothesis

/-- Decoding starts afresh at every byte that does not continue a character. -/
theorem decode_append (bytes after : Bytes)
    (fresh : ∀ byte ∈ after.head?, ¬ IsContinuation byte) :
    decode (bytes ++ after) = decode bytes ++ decode after := by
  have reads := (reads_segments bytes).append (reads_segments after) fresh
  rw [decode, ← (reads_iff _ _).mp reads, List.map_append, decode, decode]

/-- What a segment can be: an encoding with its character, or one to three bytes that are shown as
the replacement character. -/
def Segment.Fits : Segment → Prop
  | .scalar character bytes => bytes = String.utf8EncodeChar character
  | .damaged bytes => (1 ≤ bytes.length ∧ bytes.length ≤ 3) ∧
      (damaged bytes).character = '\uFFFD'

theorem Reads.fits {bytes : Bytes} {cut : List Segment} (reads : Reads bytes cut) :
    ∀ segment ∈ cut, segment.Fits := by
  induction reads with
  | nil => simp
  | scalar character further inductionHypothesis =>
    exact List.forall_mem_cons.mpr ⟨rfl, inductionHypothesis⟩
  | damaged damage further inductionHypothesis =>
    exact List.forall_mem_cons.mpr ⟨⟨damage.length_mem, rfl⟩, inductionHypothesis⟩

theorem encode_append (text more : List Char) :
    encode (text ++ more) = encode text ++ encode more :=
  List.flatMap_append

end Utf8

/-! ## Ranges of bytes -/

/-- The bytes between two offsets are those that stand there. -/
theorem Bytes.slice_append (before inside after : Bytes) :
    (before ++ inside ++ after).slice before.length (before.length + inside.length) = inside := by
  rw [Bytes.slice, ← List.length_append, List.take_left, List.drop_left]

theorem Bytes.slice_min (bytes : Bytes) (start stop : Nat) :
    bytes.slice (min start bytes.length) (min stop bytes.length) = bytes.slice start stop := by
  have taken : bytes.take (min stop bytes.length) = bytes.take stop := List.take_eq_take_min.symm
  have most : (bytes.take stop).length ≤ bytes.length := List.length_take_le' stop bytes
  rw [Bytes.slice, Bytes.slice, taken]
  rcases Nat.le_total start bytes.length with within | beyond
  · rw [Nat.min_eq_left within]
  · rw [Nat.min_eq_right beyond, List.drop_eq_nil_of_le most,
      List.drop_eq_nil_of_le (Nat.le_trans most beyond)]

theorem Bytes.text_of_le (bytes : Bytes) (start stop : Nat) (reversed : stop ≤ start) :
    bytes.text start stop = [] := by
  have none : bytes.slice start stop = [] :=
    List.drop_eq_nil_of_le (Nat.le_trans (List.length_take_le stop bytes) reversed)
  rw [Bytes.text, none]
  rfl

/-- The offsets of characters cut the encoding of a text where they cut the text. -/
theorem Utf8.slice_encode (text : List Char) (first last : Nat) (ordered : first ≤ last) :
    (encode text).slice (encode (text.take first)).length (encode (text.take last)).length =
      encode ((text.take last).drop first) := by
  have inside := List.take_append_drop first (text.take last)
  rw [List.take_take, Nat.min_eq_left ordered] at inside
  have whole : encode text =
      encode (text.take first) ++ encode ((text.take last).drop first) ++
        encode (text.drop last) := by
    rw [← encode_append, ← encode_append, inside, List.take_append_drop]
  have stop : (encode (text.take last)).length =
      (encode (text.take first)).length + (encode ((text.take last).drop first)).length := by
    rw [← List.length_append, ← encode_append, inside]
  rw [stop, whole, Bytes.slice_append]

/-! ## The text of a node -/

/-- A node's text is what stands between its offsets. Offsets of characters give the characters
between them. A text can be cut before any byte that does not continue a character. Whatever the
bytes are, there is exactly one way to cut them into encodings and maximal runs of damage, and it is
the one that is shown. Offsets beyond the end stand for the end, and nothing stands between offsets
that are not in order. -/
theorem text_lossless_and_resynchronised :
    (∀ (text : List Char) (first last : Nat) (parsed : Parsed) (node : ConcreteNode),
      first ≤ last → parsed.source = Utf8.encode text →
      node.startByte = (Utf8.encode (text.take first)).length →
      node.stopByte = (Utf8.encode (text.take last)).length →
        parsed.text node = (text.take last).drop first) ∧
    (∀ bytes after : Bytes, (∀ byte ∈ after.head?, ¬ Utf8.IsContinuation byte) →
      Utf8.decode (bytes ++ after) = Utf8.decode bytes ++ Utf8.decode after) ∧
    (∀ bytes : Bytes, ∃ cut, Utf8.decode bytes = cut.map Utf8.Segment.character ∧
      (∀ other, Utf8.Reads bytes other ↔ other = cut) ∧
      cut.flatMap Utf8.Segment.bytes = bytes ∧ ∀ segment ∈ cut, segment.Fits) ∧
    (∀ (parsed : Parsed) (node : ConcreteNode) (before inside after : Bytes),
      parsed.source = before ++ inside ++ after → node.startByte = before.length →
      node.stopByte = before.length + inside.length → parsed.text node = Utf8.decode inside) ∧
    (∀ (parsed : Parsed) (node : ConcreteNode),
      parsed.text node =
        parsed.source.text (min node.startByte parsed.source.length)
          (min node.stopByte parsed.source.length) ∧
      (node.stopByte ≤ node.startByte → parsed.text node = [])) := by
  refine ⟨?_, Utf8.decode_append, ?_, ?_, ?_⟩
  · intro text first last parsed node ordered source start stop
    rw [Parsed.text, source, start, stop, Bytes.text, Utf8.slice_encode text first last ordered,
      Utf8.decode_encode]
  · intro bytes
    have reads := Utf8.reads_segments bytes
    exact ⟨Utf8.segments bytes, rfl, Utf8.reads_iff bytes, reads.flatMap_bytes, reads.fits⟩
  · intro parsed node before inside after source start stop
    rw [Parsed.text, source, start, stop, Bytes.text, Bytes.slice_append]
  · intro parsed node
    refine ⟨?_, ?_⟩
    · rw [Parsed.text, Bytes.text, Bytes.text, Bytes.slice_min]
    · intro reversed
      exact Bytes.text_of_le parsed.source node.startByte node.stopByte reversed

/-- A source of one character of each length, and the first again. -/
def mixedSource : Parsed :=
  { tree := .node ⟨"program", ⟨0, 0⟩, 0, 11, false⟩ []
    source := Utf8.encode ['a', 'é', '€', '𝄞', 'a']
    hasError := false }

/-- A node on the three longer characters has them as its text. One that ends inside the last of
them has damage in its place, and what is left of a character in front of another one stays apart
from it. -/
theorem text_mixedSource :
    mixedSource.text ⟨"identifier", ⟨0, 1⟩, 1, 10, false⟩ = ['é', '€', '𝄞'] ∧
    mixedSource.text ⟨"identifier", ⟨0, 3⟩, 3, 9, false⟩ = ['€', '\uFFFD'] ∧
    mixedSource.text ⟨"identifier", ⟨0, 3⟩, 9, 3, false⟩ = [] ∧
    Utf8.decode ([0xF0, 0x9D, 0x84] ++ [0xE2, 0x82, 0xAC]) = ['\uFFFD', '€'] := by
  obtain ⟨lossless, cut, -, inside, clamped⟩ := text_lossless_and_resynchronised
  refine ⟨?_, ?_, ?_, ?_⟩
  · exact lossless ['a', 'é', '€', '𝄞', 'a'] 1 4 mixedSource _ (by decide) rfl
      (by decide) (by decide)
  · rw [inside mixedSource _ [0x61, 0xC3, 0xA9] [0xE2, 0x82, 0xAC, 0xF0, 0x9D, 0x84] [0x9E, 0x61]
      (by decide) rfl rfl]
    decide
  · exact (clamped mixedSource ⟨"identifier", ⟨0, 3⟩, 9, 3, false⟩).2 (by decide)
  · rw [cut [0xF0, 0x9D, 0x84] [0xE2, 0x82, 0xAC] (by simp [Utf8.IsContinuation])]
    decide

end StraySemicolon

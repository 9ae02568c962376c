import Mathlib.Data.List.Basic
import Mathlib.Tactic.SplitIfs
import StraySemicolon.Text.Utf8

/-!
# Encodings of characters

What the machine that reads bytes knows about the encodings of characters. The arithmetic of
encodings is needed once, for the byte that leads a character. `Utf8.Expects` says of a state inside
a character which bytes complete which character, and each further byte only takes itself off what
is expected.
-/

namespace StraySemicolon.Utf8

/-! ## Encodings -/

/-- A byte that only occurs inside the encodings of characters. -/
def IsContinuation (byte : UInt8) : Prop :=
  0x80 ≤ byte ∧ byte ≤ 0xBF

theorem eq_iff_map_toNat (bytes others : Bytes) :
    bytes = others ↔ bytes.map UInt8.toNat = others.map UInt8.toNat := by
  constructor
  · rintro rfl
    rfl
  · intro same
    exact List.map_injective_iff.mpr (fun _ _ => UInt8.toNat_inj.mp) same

theorem toNat_valid (character : Char) :
    character.toNat < 0xD800 ∨ 0xDFFF < character.toNat ∧ character.toNat < 0x110000 :=
  character.valid

theorem toNat_ofNat_of_valid (number : Nat) (valid : number.isValidChar) :
    (Char.ofNat number).toNat = number := by
  rw [Char.ofNat, dif_pos valid]
  rfl

/-- The bytes of a character as numbers. -/
theorem map_toNat_encode (character : Char) :
    (String.utf8EncodeChar character).map UInt8.toNat =
      if character.toNat < 0x80 then [character.toNat]
      else if character.toNat < 0x800 then
        [character.toNat / 64 + 0xC0, character.toNat % 64 + 0x80]
      else if character.toNat < 0x10000 then
        [character.toNat / 4096 + 0xE0, character.toNat / 64 % 64 + 0x80,
          character.toNat % 64 + 0x80]
      else
        [character.toNat / 262144 + 0xF0, character.toNat / 4096 % 64 + 0x80,
          character.toNat / 64 % 64 + 0x80, character.toNat % 64 + 0x80] := by
  have valid := toNat_valid character
  have same : character.val.toNat = character.toNat := rfl
  unfold String.utf8EncodeChar
  simp only [same]
  split_ifs <;> try omega
  all_goals
    simp only [List.map_cons, List.map_nil, UInt8.ofNat_add, UInt8.reduceOfNat, UInt8.toNat_add,
      UInt8.toNat_ofNat', Nat.reducePow, UInt8.reduceToNat, List.cons.injEq, and_true]
    omega

/-- The leading byte tells how large the code point is. -/
theorem range_of_lead (character : Char) (lead : UInt8) (rest : Bytes)
    (same : String.utf8EncodeChar character = lead :: rest) :
    lead.toNat < 0x80 ∧ character.toNat < 0x80 ∨
      (0xC2 ≤ lead.toNat ∧ lead.toNat < 0xE0) ∧ 0x80 ≤ character.toNat ∧
        character.toNat < 0x800 ∨
      (0xE0 ≤ lead.toNat ∧ lead.toNat < 0xF0) ∧ 0x800 ≤ character.toNat ∧
        character.toNat < 0x10000 ∨
      (0xF0 ≤ lead.toNat ∧ lead.toNat < 0xF5) ∧ 0x10000 ≤ character.toNat := by
  have valid := toNat_valid character
  rw [eq_iff_map_toNat, map_toNat_encode, List.map_cons] at same
  split_ifs at same <;> have first := (List.cons.inj same).1 <;> omega

/-- Only the leading byte is not a continuation byte. -/
theorem isContinuation_of_mem_tail (character : Char) (lead : UInt8) (rest : Bytes)
    (same : String.utf8EncodeChar character = lead :: rest) :
    ∀ byte ∈ rest, IsContinuation byte := by
  intro byte member
  have inside : byte.toNat ∈ rest.map UInt8.toNat := List.mem_map_of_mem member
  rw [eq_iff_map_toNat, map_toNat_encode, List.map_cons] at same
  rw [IsContinuation, UInt8.le_iff_toNat_le, UInt8.le_iff_toNat_le]
  simp only [UInt8.reduceToNat]
  split_ifs at same <;> rw [← (List.cons.inj same).2] at inside <;> simp at inside <;> omega

/-! ## What completes a character -/

/-- Bytes that complete a character of which `owed + 1` bytes are missing: the first one lies
between the bounds and the others are any continuation bytes. -/
def Completes (owed : Nat) (low high : UInt8) : Bytes → Prop
  | [] => False
  | byte :: rest =>
    (low ≤ byte ∧ byte ≤ high) ∧ rest.length = owed ∧
      ∀ other ∈ rest, IsContinuation other

/-- The code point of a character whose first bytes contribute `value`, with the other bytes
given. -/
def codePoint (value : Nat) : Bytes → Nat
  | [] => value
  | byte :: rest => codePoint (byte.toNat - 0x80 + value * 64) rest

theorem Completes.length_eq {owed : Nat} {low high : UInt8} {rest : Bytes}
    (completes : Completes owed low high rest) : rest.length = owed + 1 := by
  cases rest with
  | nil => exact completes.elim
  | cons byte rest => rw [List.length_cons, completes.2.1]

theorem completes_singleton_iff (low high byte : UInt8) :
    Completes 0 low high [byte] ↔ low.toNat ≤ byte.toNat ∧ byte.toNat ≤ high.toNat := by
  simp [Completes, UInt8.le_iff_toNat_le]

/-- After the first byte any continuation bytes do. -/
theorem completes_cons_iff (owed : Nat) (low high byte : UInt8) (rest : Bytes) :
    Completes (owed + 1) low high (byte :: rest) ↔
      (low.toNat ≤ byte.toNat ∧ byte.toNat ≤ high.toNat) ∧
        Completes owed 0x80 0xBF rest := by
  cases rest with
  | nil => simp [Completes]
  | cons other rest => simp [Completes, UInt8.le_iff_toNat_le, IsContinuation, and_left_comm]

/-- The encodings that begin with the lead of two bytes. -/
theorem encode_eq_cons_two (lead : UInt8) (leads : 0xC2 ≤ lead.toNat ∧ lead.toNat < 0xE0)
    (character : Char) (rest : Bytes) :
    String.utf8EncodeChar character = lead :: rest ↔
      Completes 0 0x80 0xBF rest ∧ character.toNat = codePoint (lead.toNat - 0xC0) rest := by
  constructor
  · intro same
    have range := range_of_lead character lead rest same
    rw [eq_iff_map_toNat, map_toNat_encode, if_neg (by omega), if_pos (by omega),
      List.map_cons] at same
    obtain ⟨first, others⟩ := List.cons.inj same
    obtain ⟨second, rfl, here⟩ := List.map_eq_singleton_iff.mp others.symm
    simp only [completes_singleton_iff, codePoint, UInt8.reduceToNat]
    omega
  · rintro ⟨completes, value⟩
    obtain ⟨second, rfl⟩ := List.length_eq_one_iff.mp completes.length_eq
    simp only [completes_singleton_iff, codePoint, UInt8.reduceToNat] at completes value
    rw [eq_iff_map_toNat, map_toNat_encode, if_neg (by omega), if_pos (by omega)]
    simp only [List.map_cons, List.map_nil, List.cons.injEq, and_true]
    omega

/-- Whatever completes the lead of two bytes, the code point is one of a character. -/
theorem isValidChar_two (lead : UInt8) (leads : 0xC2 ≤ lead.toNat ∧ lead.toNat < 0xE0)
    (rest : Bytes)
    (completes : Completes 0 0x80 0xBF rest) :
    (codePoint (lead.toNat - 0xC0) rest).isValidChar := by
  obtain ⟨second, rfl⟩ := List.length_eq_one_iff.mp completes.length_eq
  simp only [completes_singleton_iff, UInt8.reduceToNat] at completes
  simp only [codePoint, Nat.isValidChar]
  omega

/-- The encodings that begin with a lead of three bytes. After 0xE0 a small second byte would make
the encoding overlong, after 0xED a large one would make it a surrogate. -/
theorem encode_eq_cons_three (lead low high : UInt8)
    (leads : 0xE0 ≤ lead.toNat ∧ lead.toNat < 0xF0)
    (lowest : low.toNat = 0xA0 ∧ lead.toNat = 0xE0 ∨ low.toNat = 0x80 ∧ lead.toNat ≠ 0xE0)
    (highest : high.toNat = 0x9F ∧ lead.toNat = 0xED ∨
      high.toNat = 0xBF ∧ lead.toNat ≠ 0xED) (character : Char) (rest : Bytes) :
    String.utf8EncodeChar character = lead :: rest ↔
      Completes 1 low high rest ∧ character.toNat = codePoint (lead.toNat - 0xE0) rest := by
  have valid := toNat_valid character
  constructor
  · intro same
    have range := range_of_lead character lead rest same
    rw [eq_iff_map_toNat, map_toNat_encode, if_neg (by omega), if_neg (by omega), if_pos (by omega),
      List.map_cons] at same
    obtain ⟨first, others⟩ := List.cons.inj same
    obtain ⟨second, third, rfl⟩ :=
      List.length_eq_two.mp (by simpa using congrArg List.length others.symm)
    simp only [List.map_cons, List.map_nil, List.cons.injEq, and_true] at others
    simp only [completes_cons_iff, completes_singleton_iff, codePoint, UInt8.reduceToNat]
    omega
  · rintro ⟨completes, value⟩
    obtain ⟨second, third, rfl⟩ := List.length_eq_two.mp completes.length_eq
    simp only [completes_cons_iff, completes_singleton_iff, codePoint,
      UInt8.reduceToNat] at completes value
    rw [eq_iff_map_toNat, map_toNat_encode, if_neg (by omega), if_neg (by omega), if_pos (by omega)]
    simp only [List.map_cons, List.map_nil, List.cons.injEq, and_true]
    omega

theorem isValidChar_three (lead low high : UInt8)
    (leads : 0xE0 ≤ lead.toNat ∧ lead.toNat < 0xF0)
    (highest : high.toNat = 0x9F ∧ lead.toNat = 0xED ∨
      high.toNat = 0xBF ∧ lead.toNat ≠ 0xED)
    (rest : Bytes) (completes : Completes 1 low high rest) :
    (codePoint (lead.toNat - 0xE0) rest).isValidChar := by
  obtain ⟨second, third, rfl⟩ := List.length_eq_two.mp completes.length_eq
  simp only [completes_cons_iff, completes_singleton_iff, UInt8.reduceToNat] at completes
  simp only [codePoint, Nat.isValidChar]
  omega

/-- The encodings that begin with a lead of four bytes. After 0xF0 a small second byte would make
the encoding overlong, after 0xF4 a large one would exceed the code points. -/
theorem encode_eq_cons_four (lead low high : UInt8)
    (leads : 0xF0 ≤ lead.toNat ∧ lead.toNat < 0xF5)
    (lowest : low.toNat = 0x90 ∧ lead.toNat = 0xF0 ∨ low.toNat = 0x80 ∧ lead.toNat ≠ 0xF0)
    (highest : high.toNat = 0x8F ∧ lead.toNat = 0xF4 ∨
      high.toNat = 0xBF ∧ lead.toNat ≠ 0xF4) (character : Char) (rest : Bytes) :
    String.utf8EncodeChar character = lead :: rest ↔
      Completes 2 low high rest ∧ character.toNat = codePoint (lead.toNat - 0xF0) rest := by
  have valid := toNat_valid character
  constructor
  · intro same
    have range := range_of_lead character lead rest same
    rw [eq_iff_map_toNat, map_toNat_encode, if_neg (by omega), if_neg (by omega), if_neg (by omega),
      List.map_cons] at same
    obtain ⟨first, others⟩ := List.cons.inj same
    obtain ⟨second, third, fourth, rfl⟩ :=
      List.length_eq_three.mp (by simpa using congrArg List.length others.symm)
    simp only [List.map_cons, List.map_nil, List.cons.injEq, and_true] at others
    simp only [completes_cons_iff, completes_singleton_iff, codePoint, UInt8.reduceToNat]
    omega
  · rintro ⟨completes, value⟩
    obtain ⟨second, third, fourth, rfl⟩ := List.length_eq_three.mp completes.length_eq
    simp only [completes_cons_iff, completes_singleton_iff, codePoint,
      UInt8.reduceToNat] at completes value
    rw [eq_iff_map_toNat, map_toNat_encode, if_neg (by omega), if_neg (by omega), if_neg (by omega)]
    simp only [List.map_cons, List.map_nil, List.cons.injEq, and_true]
    omega

theorem isValidChar_four (lead low high : UInt8) (leads : 0xF0 ≤ lead.toNat ∧ lead.toNat < 0xF5)
    (lowest : low.toNat = 0x90 ∧ lead.toNat = 0xF0 ∨ low.toNat = 0x80 ∧ lead.toNat ≠ 0xF0)
    (highest : high.toNat = 0x8F ∧ lead.toNat = 0xF4 ∨
      high.toNat = 0xBF ∧ lead.toNat ≠ 0xF4)
    (rest : Bytes) (completes : Completes 2 low high rest) :
    (codePoint (lead.toNat - 0xF0) rest).isValidChar := by
  obtain ⟨second, third, fourth, rfl⟩ := List.length_eq_three.mp completes.length_eq
  simp only [completes_cons_iff, completes_singleton_iff, UInt8.reduceToNat] at completes
  simp only [codePoint, Nat.isValidChar]
  omega

/-! ## What a state expects -/

/-- What the machine knows inside a character: the bytes taken are no encoding and have none at
their front, and the encodings that they begin are those of the bytes that complete the state. -/
structure Expects (owed : Nat) (low high : UInt8) (value : Nat) (taken : Bytes) : Prop where
  begun : taken ≠ []
  ordered : low ≤ high
  incomplete : ∀ character, ¬ String.utf8EncodeChar character <+: taken
  valid : ∀ rest, Completes owed low high rest → (codePoint value rest).isValidChar
  encodes : ∀ character rest, String.utf8EncodeChar character = taken ++ rest ↔
    Completes owed low high rest ∧ character.toNat = codePoint value rest

/-- A lead begins the encodings that it is said to begin. -/
theorem expects_of_lead (owed : Nat) (low high lead : UInt8) (value : Nat) (ordered : low ≤ high)
    (valid : ∀ rest, Completes owed low high rest → (codePoint value rest).isValidChar)
    (encodes : ∀ character rest, String.utf8EncodeChar character = lead :: rest ↔
      Completes owed low high rest ∧ character.toNat = codePoint value rest) :
    Expects owed low high value [lead] where
  begun := List.cons_ne_nil _ _
  ordered := ordered
  incomplete := by
    intro character front
    rcases List.prefix_cons_iff.mp front with empty | ⟨rest, whole, inside⟩
    · exact absurd empty String.utf8EncodeChar_ne_nil
    · rw [List.prefix_nil.mp inside] at whole
      exact ((encodes character []).mp whole).1
  valid := valid
  encodes := encodes

namespace Expects

variable {owed : Nat} {low high : UInt8} {value : Nat} {taken : Bytes}

/-- A byte that fits and is not the last one is taken off what is expected. -/
theorem next (expects : Expects (owed + 1) low high value taken) (byte : UInt8)
    (fits : low ≤ byte ∧ byte ≤ high) :
    Expects owed 0x80 0xBF (value * 64 + (byte.toNat - 0x80)) (taken ++ [byte]) := by
  have same : byte.toNat - 0x80 + value * 64 = value * 64 + (byte.toNat - 0x80) := Nat.add_comm _ _
  have further (rest : Bytes) :
      Completes (owed + 1) low high (byte :: rest) ↔ Completes owed 0x80 0xBF rest := by
    rw [completes_cons_iff, ← UInt8.le_iff_toNat_le, ← UInt8.le_iff_toNat_le,
      and_iff_right fits]
  have encodes (character : Char) (rest : Bytes) :
      String.utf8EncodeChar character = taken ++ [byte] ++ rest ↔
        Completes owed 0x80 0xBF rest ∧
          character.toNat = codePoint (value * 64 + (byte.toNat - 0x80)) rest := by
    rw [List.append_assoc, List.singleton_append, expects.encodes, further, codePoint, same]
  refine ⟨by simp, by decide, ?_, ?_, encodes⟩
  · intro character front
    rcases List.prefix_concat_iff.mp front with whole | inside
    · rw [← List.append_nil (taken ++ [byte])] at whole
      exact ((encodes character []).mp whole).1
    · exact expects.incomplete character inside
  · intro rest completes
    have valid := expects.valid (byte :: rest) ((further rest).mpr completes)
    rwa [codePoint, same] at valid

/-- The last byte completes a character. -/
theorem complete (expects : Expects 0 low high value taken) (byte : UInt8)
    (fits : low ≤ byte ∧ byte ≤ high) :
    String.utf8EncodeChar (Char.ofNat (value * 64 + (byte.toNat - 0x80))) = taken ++ [byte] := by
  have completes : Completes 0 low high [byte] := by simp [Completes, fits]
  have same : codePoint value [byte] = value * 64 + (byte.toNat - 0x80) := Nat.add_comm _ _
  have valid := expects.valid [byte] completes
  rw [same] at valid
  rw [expects.encodes]
  refine ⟨completes, ?_⟩
  rw [same, toNat_ofNat_of_valid _ valid]

/-- A byte that does not fit continues no encoding. -/
theorem ne_of_misfit (expects : Expects owed low high value taken) (byte : UInt8)
    (misfit : ¬ (low ≤ byte ∧ byte ≤ high)) (character : Char) (rest : Bytes) :
    String.utf8EncodeChar character ≠ taken ++ byte :: rest := by
  intro same
  exact misfit ((expects.encodes character (byte :: rest)).mp same).1.1

/-- Some encoding begins with what was taken. -/
theorem exists_encoding (expects : Expects owed low high value taken) :
    ∃ character rest, rest ≠ [] ∧ String.utf8EncodeChar character = taken ++ rest := by
  have completes : Completes owed low high (low :: List.replicate owed 0x80) := by
    refine ⟨⟨UInt8.le_refl low, expects.ordered⟩, List.length_replicate, ?_⟩
    intro other member
    rw [List.eq_of_mem_replicate member]
    exact ⟨by decide, by decide⟩
  have valid := expects.valid _ completes
  refine ⟨Char.ofNat (codePoint value (low :: List.replicate owed 0x80)), _, List.cons_ne_nil _ _,
    (expects.encodes _ _).mpr ⟨completes, ?_⟩⟩
  rw [toNat_ofNat_of_valid _ valid]

end Expects

theorem toNat_ite (byte special first second : UInt8) :
    (if byte = special then first else second).toNat = first.toNat ∧
      byte.toNat = special.toNat ∨
      (if byte = special then first else second).toNat = second.toNat ∧
        byte.toNat ≠ special.toNat := by
  by_cases same : byte = special
  · simp [same]
  · simp [same, UInt8.toNat_inj]

/-- Between characters a byte is a character of its own, or begins no encoding, or leads one. -/
theorem enter_cases (byte : UInt8) :
    enter byte = ([.scalar (Char.ofNat byte.toNat) [byte]], .start) ∧
        String.utf8EncodeChar (Char.ofNat byte.toNat) = [byte] ∨
      enter byte = ([.damaged [byte]], .start) ∧
        (∀ character rest, String.utf8EncodeChar character ≠ byte :: rest) ∨
      ∃ owed low high value, enter byte = ([], .inside owed low high value [byte]) ∧
        Expects owed low high value [byte] := by
  have bound : byte.toNat < 0x100 := byte.toNat_lt
  rw [enter]
  simp only [UInt8.lt_iff_toNat_lt, UInt8.reduceToNat]
  by_cases ascii : byte.toNat < 0x80
  · left
    rw [if_pos ascii]
    refine ⟨rfl, ?_⟩
    have value := toNat_ofNat_of_valid byte.toNat (Or.inl (by omega))
    rw [eq_iff_map_toNat, map_toNat_encode, value, if_pos ascii]
    rfl
  rw [if_neg ascii]
  by_cases stray : byte.toNat < 0xC2
  · right; left
    rw [if_pos stray]
    refine ⟨rfl, ?_⟩
    intro character rest same
    have range := range_of_lead character byte rest same
    omega
  rw [if_neg stray]
  by_cases two : byte.toNat < 0xE0
  · right; right
    rw [if_pos two]
    exact ⟨_, _, _, _, rfl,
      expects_of_lead _ _ _ _ _ (by decide) (isValidChar_two byte (by omega))
      (encode_eq_cons_two byte (by omega))⟩
  rw [if_neg two]
  by_cases three : byte.toNat < 0xF0
  · right; right
    rw [if_pos three]
    have lowest := toNat_ite byte 0xE0 0xA0 0x80
    have highest := toNat_ite byte 0xED 0x9F 0xBF
    refine ⟨_, _, _, _, rfl, expects_of_lead _ _ _ _ _ ?_
      (isValidChar_three byte _ _ (by omega) highest)
      (encode_eq_cons_three byte _ _ (by omega) lowest highest)⟩
    simp only [UInt8.reduceToNat] at lowest highest
    rw [UInt8.le_iff_toNat_le]
    omega
  rw [if_neg three]
  by_cases four : byte.toNat < 0xF5
  · right; right
    rw [if_pos four]
    have lowest := toNat_ite byte 0xF0 0x90 0x80
    have highest := toNat_ite byte 0xF4 0x8F 0xBF
    refine ⟨_, _, _, _, rfl, expects_of_lead _ _ _ _ _ ?_
      (isValidChar_four byte _ _ (by omega) lowest highest)
      (encode_eq_cons_four byte _ _ (by omega) lowest highest)⟩
    simp only [UInt8.reduceToNat] at lowest highest
    rw [UInt8.le_iff_toNat_le]
    omega
  right; left
  rw [if_neg four]
  refine ⟨rfl, ?_⟩
  intro character rest same
  have range := range_of_lead character byte rest same
  omega

end StraySemicolon.Utf8

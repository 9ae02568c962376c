import StraySemicolon.Path

/-!
# The normal form of a path

A path that is read off a text has components that a text can spell: none is empty or a single dot,
and none holds a slash. Such a path has one written form, and reading that form gives the path back.
The root needs care: the written form of a relative path must not begin with a slash, and that of an
absolute one must not begin with more slashes than its root has.
-/

namespace StraySemicolon.Path

/-- Every component is one that a text can spell. -/
def Normal (path : Path) : Prop :=
  ∀ part ∈ path.parts, part ≠ "" ∧ part ≠ "." ∧ '/' ∉ part.toList

theorem splitSlashes_eq_splitOn (characters : List Char) :
    splitSlashes characters = characters.splitOn '/' := by
  induction characters with
  | nil => rfl
  | cons character rest inductionHypothesis =>
    rw [splitSlashes, inductionHypothesis, List.splitOn_cons_eq_if_modifyHead]
    cases split : rest.splitOn '/' with
    | nil => exact absurd split (List.splitOn_ne_nil '/' rest)
    | cons part parts => simp

/-- No part between slashes holds a slash. -/
theorem slash_not_mem_of_mem_splitSlashes (characters part : List Char)
    (member : part ∈ splitSlashes characters) : '/' ∉ part := by
  induction characters generalizing part with
  | nil => simp_all [splitSlashes]
  | cons character rest inductionHypothesis =>
    rw [splitSlashes] at member
    split at member
    · rcases List.mem_cons.mp member with rfl | later
      · exact List.not_mem_nil
      · exact inductionHypothesis part later
    · next different =>
      cases parts : splitSlashes rest with
      | nil =>
        simp only [parts, List.mem_singleton] at member
        simp [member, Ne.symm different]
      | cons first others =>
        simp only [parts, List.mem_cons] at member
        rcases member with rfl | later
        · have here := inductionHypothesis first (by simp [parts])
          simp [here, Ne.symm different]
        · exact inductionHypothesis part (by simp [parts, later])

/-- Reading a text gives a path in normal form. -/
theorem normal_ofText (text : String) : (ofText text).Normal := by
  intro part member
  obtain ⟨characters, kept, rfl⟩ := List.mem_map.mp member
  obtain ⟨listed, named⟩ := List.mem_filter.mp kept
  have slash := slash_not_mem_of_mem_splitSlashes _ characters listed
  simp only [ne_eq, Bool.and_eq_true, decide_eq_true_eq] at named
  refine ⟨?_, ?_, by simpa using slash⟩
  · intro empty
    exact named.1 (by simpa using congrArg String.toList empty)
  · intro dot
    exact named.2 (by simpa using congrArg String.toList dot)

/-! ## Reading the written form -/

/-- The components that characters spell. -/
def spelled (characters : List Char) : List (List Char) :=
  (splitSlashes characters).filter fun part => part ≠ [] && part ≠ ['.']

theorem components_eq (text : String) : components text = (spelled text.toList).map String.ofList :=
  rfl

/-- A slash in front names nothing. -/
theorem spelled_slash (rest : List Char) : spelled ('/' :: rest) = spelled rest := by
  simp [spelled, splitSlashes]

/-- The components of a path are read off again from their written form. -/
theorem spelled_intercalate (parts : List String)
    (normal : ∀ part ∈ parts, part ≠ "" ∧ part ≠ "." ∧ '/' ∉ part.toList) :
    spelled ("/".intercalate parts).toList = parts.map String.toList := by
  have written : ("/".intercalate parts).toList = ['/'].intercalate (parts.map String.toList) :=
    String.toList_intercalate
  cases parts with
  | nil => rfl
  | cons first rest =>
    rw [spelled, splitSlashes_eq_splitOn, written, List.splitOn_intercalate '/' ?_ (by simp),
      List.filter_eq_self]
    · intro characters member
      obtain ⟨part, listed, rfl⟩ := List.mem_map.mp member
      obtain ⟨nonempty, different, -⟩ := normal part listed
      have dot : part.toList ≠ ['.'] := fun same => different (String.toList_inj.mp same)
      simp [nonempty, dot]
    · intro characters member
      obtain ⟨part, listed, rfl⟩ := List.mem_map.mp member
      exact (normal part listed).2.2

/-- The written components do not begin with a slash. -/
theorem head?_intercalate (parts : List String)
    (normal : ∀ part ∈ parts, part ≠ "" ∧ part ≠ "." ∧ '/' ∉ part.toList) :
    ("/".intercalate parts).toList.head? ≠ some '/' := by
  cases parts with
  | nil => simp
  | cons first rest =>
    obtain ⟨nonempty, -, slash⟩ := normal first List.mem_cons_self
    have some_character : first.toList ≠ [] := by simpa using nonempty
    obtain ⟨character, others, opened⟩ := List.exists_cons_of_ne_nil some_character
    have begins : ("/".intercalate (first :: rest)).toList.head? = some character := by
      cases rest <;> simp [opened]
    rw [begins]
    intro same
    rw [opened, Option.some_inj.mp same] at slash
    exact slash List.mem_cons_self

theorem rootOf_of_head? (characters : List Char) (start : characters.head? ≠ some '/') :
    rootOf characters = .working ∧ rootOf ('/' :: characters) = .single ∧
      rootOf ('/' :: '/' :: characters) = .double := by
  cases characters with
  | nil => exact ⟨rfl, rfl, rfl⟩
  | cons character rest =>
    have different : character ≠ '/' := by simpa using start
    simp [rootOf, different]

/-- A path in normal form is read off its written form. -/
theorem ofText_text (path : Path) (normal : path.Normal) : ofText path.text = path := by
  obtain ⟨root, parts⟩ := path
  obtain ⟨working, single, double⟩ := rootOf_of_head? _ (head?_intercalate parts normal)
  have named : (spelled ("/".intercalate parts).toList).map String.ofList = parts := by
    rw [spelled_intercalate parts normal, List.map_map]
    simp [Function.comp_def]
  cases root with
  | working =>
    cases parts with
    | nil => decide
    | cons first rest =>
      rw [ofText, components_eq, text]
      simp only [List.isEmpty_cons, Bool.false_eq_true, if_false, working, named]
  | single =>
    have slash : ("/" ++ "/".intercalate parts).toList = '/' :: ("/".intercalate parts).toList :=
      String.toList_append
    rw [ofText, components_eq, text]
    simp only [slash, single, spelled_slash, named]
  | double =>
    have slashes :
        ("//" ++ "/".intercalate parts).toList = '/' :: '/' :: ("/".intercalate parts).toList :=
      String.toList_append
    rw [ofText, components_eq, text]
    simp only [slashes, double, spelled_slash, named]

/-- The written form of what a text names names the same. -/
theorem ofText_text_ofText (text : String) : ofText (ofText text).text = ofText text :=
  ofText_text _ (normal_ofText text)

end StraySemicolon.Path

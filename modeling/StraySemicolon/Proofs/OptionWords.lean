import Mathlib.Data.List.Basic
import StraySemicolon.Arguments

/-!
# Option words and path texts

A command line of complete option words and path texts is understood word by word. What a word is
does not depend on the words around it, as long as the word that ends the options has not come;
taking an option word changes what it names and nothing else, and closes a group of operands that
has begun. So option words may stand before the paths, after them, or on both sides, in any order,
and the arguments are always the same.
-/

namespace StraySemicolon.Arguments

/-- A text that can be the value of an option. Only the word that ends the options cannot. -/
abbrev OptionValue := { text : String // text ≠ terminatorWord }

/-- The options without a value that leave the run going, in all their spellings. -/
def flagSpellings : List (String × Switch) :=
  [("--list-checks", .listChecks), ("--follow-symlinks", .followSymlinks), ("--quiet", .quiet),
    ("-q", .quiet), ("--verbose", .verbose), ("-v", .verbose)]

/-- A word that is a complete option, with its value if it has one. -/
inductive OptionWord where
  | check (name : OptionValue)
  | suffix (ending : OptionValue)
  | flag (entry : String × Switch) (offered : entry ∈ flagSpellings)

namespace OptionWord

/-- The word as it is written. -/
def text : OptionWord → String
  | check name => "--check=" ++ name.val
  | suffix ending => "--suffix=" ++ ending.val
  | flag entry _ => entry.1

/-- What the word is. -/
def wordClass : OptionWord → WordClass
  | check name => .option "--check" .check (some name.val)
  | suffix ending => .option "--suffix" .suffix (some ending.val)
  | flag entry _ => .option entry.1 entry.2 none

/-- The check that the word asks for, if it does. -/
def checks : OptionWord → List String
  | check name => [name.val]
  | _ => []

/-- The ending of source files that the word gives, if it does. -/
def suffixes : OptionWord → List String
  | suffix ending => [ending.val]
  | _ => []

/-- Whether the word is written in one of the given ways. -/
def isSpelled (word : OptionWord) (spellings : List String) : Bool :=
  spellings.contains word.text

end OptionWord

/-! ## What a word is -/

/-- Characters are split at the first equals sign. -/
theorem splitAtEquals_append (before after : List Char) (first : '=' ∉ before) :
    splitAtEquals (before ++ '=' :: after) = some (before, after) := by
  induction before with
  | nil => rfl
  | cons character rest inductionHypothesis =>
    have different : character ≠ '=' := fun same => first (List.mem_cons.mpr (Or.inl same.symm))
    have later : '=' ∉ rest := fun member => first (List.mem_cons_of_mem _ member)
    simp [splitAtEquals, different, inductionHypothesis later]

/-- An option is spelt with a dash, then something else, and no equals sign. -/
theorem spelling_of_ofSpelling? (word : String) (option : Switch)
    (known : Switch.ofSpelling? word = some option) :
    (∃ second rest, word.toList = '-' :: second :: rest) ∧ '=' ∉ word.toList := by
  have each : ∀ entry ∈ Switch.spellings,
      entry.1.toList.head? = some '-' ∧ entry.1.toList.tail ≠ [] ∧
        '=' ∉ entry.1.toList := by decide
  obtain ⟨before, after, split, -⟩ := List.lookup_eq_some_iff.mp known
  obtain ⟨dash, more, plain⟩ := each (word, option) (by simp [split])
  refine ⟨?_, plain⟩
  obtain ⟨second, rest, follows⟩ := List.exists_cons_of_ne_nil more
  exact ⟨second, rest, by rw [List.eq_cons_of_mem_head? dash, follows]⟩

/-- A spelling with an equals sign and a value names the option of that spelling, whatever the value
is. -/
theorem spelled?_of_value (spelling value : String) (option : Switch)
    (known : Switch.ofSpelling? spelling = some option) :
    spelled? (spelling ++ "=" ++ value) = some (spelling, option, some value) := by
  have characters : (spelling ++ "=" ++ value).toList = spelling.toList ++ '=' :: value.toList := by
    simp
  have whole : Switch.ofSpelling? (spelling ++ "=" ++ value) = none := by
    rw [Option.eq_none_iff_forall_ne_some]
    intro other named
    exact (spelling_of_ofSpelling? _ other named).2 (by simp [characters])
  have split :=
    splitAtEquals_append spelling.toList value.toList (spelling_of_ofSpelling? _ _ known).2
  simp [spelled?, whole, characters, split, known]

theorem classify_of_value (spelling value : String) (option : Switch)
    (known : Switch.ofSpelling? spelling = some option) :
    classify (spelling ++ "=" ++ value) = .ok (.option spelling option (some value)) := by
  obtain ⟨⟨second, rest, dash⟩, -⟩ := spelling_of_ofSpelling? spelling option known
  have characters : (spelling ++ "=" ++ value).toList =
      '-' :: second :: (rest ++ '=' :: value.toList) := by
    simp [dash]
  rw [classify, characters]
  simp [spelled?_of_value spelling value option known]

/-- An option word is an option, whatever its value is. -/
theorem OptionWord.classify_text (word : OptionWord) :
    classify word.text = .ok word.wordClass := by
  cases word with
  | check name => exact classify_of_value "--check" name.val .check rfl
  | suffix ending => exact classify_of_value "--suffix" ending.val .suffix rfl
  | flag entry offered =>
    have each : ∀ entry ∈ flagSpellings,
        classify entry.1 = .ok (.option entry.1 entry.2 none) := by decide
    exact each entry offered

/-- A word that does not begin with a dash is an operand. -/
theorem classify_of_operand (word : String) (dash : word.toList.head? ≠ some '-') :
    classify word = .ok .operand := by
  rw [classify]
  split
  · next split => simp [split] at dash
  · rfl

/-- The word that ends the options is of no class by itself: it is the beginning of every long
option. -/
theorem classify_terminatorWord (wordClass : WordClass) :
    classify terminatorWord ≠ .ok wordClass := by
  have refused : (classify terminatorWord).isOk = false := by decide
  intro same
  simp [same, Except.isOk, Except.toBool] at refused

/-- Words that each are of some class have these classes together, whatever comes after them. -/
theorem classifyAll_append {α : Type} (text : α → String) (wordClass : α → WordClass)
    (items : List α) (each : ∀ item ∈ items, classify (text item) = .ok (wordClass item))
    (later : List String) (classes : List (String × WordClass))
    (rest : classifyAll later = .ok classes) :
    classifyAll (items.map text ++ later) =
      .ok (items.map (fun item => (text item, wordClass item)) ++ classes) := by
  induction items with
  | nil => exact rest
  | cons item others inductionHypothesis =>
    have here := each item List.mem_cons_self
    -- Only the word that ends the options would change what the words after it are.
    have ordinary : text item ≠ terminatorWord := by
      intro same
      rw [same] at here
      exact classify_terminatorWord _ here
    have after := inductionHypothesis fun other member => each other (List.mem_cons_of_mem _ member)
    rw [List.map_cons, List.cons_append, classifyAll, if_neg ordinary, here, after]
    rfl

/-! ## What words amount to -/

/-- Values that are given after earlier ones, if there are any. -/
def gathered (earlier : Option (List String)) (values : List String) : Option (List String) :=
  if values = [] then earlier else some (earlier.getD [] ++ values)

theorem gathered_append (earlier : Option (List String)) (first second : List String) :
    gathered (gathered earlier first) second = gathered earlier (first ++ second) := by
  by_cases none : first = []
  · simp [gathered, none]
  · by_cases last : second = [] <;> simp [gathered, none, last]

/-- The arguments with what option words name. -/
def withOptions (arguments : Arguments) (options : List OptionWord) : Arguments where
  paths := arguments.paths
  check := gathered arguments.check (options.flatMap OptionWord.checks)
  listChecks := arguments.listChecks || options.any (·.isSpelled ["--list-checks"])
  suffix := gathered arguments.suffix (options.flatMap OptionWord.suffixes)
  followSymlinks := arguments.followSymlinks || options.any (·.isSpelled ["--follow-symlinks"])
  quiet := arguments.quiet || options.any (·.isSpelled ["--quiet", "-q"])
  verbose := arguments.verbose || options.any (·.isSpelled ["--verbose", "-v"])

theorem withOptions_nil (arguments : Arguments) : arguments.withOptions [] = arguments := by
  simp [withOptions, gathered]

theorem withOptions_append (arguments : Arguments) (first second : List OptionWord) :
    (arguments.withOptions first).withOptions second = arguments.withOptions (first ++ second) := by
  simp [withOptions, gathered_append, Bool.or_assoc]

/-- The arguments that option words and the texts of paths stand for. -/
def summary (options : List OptionWord) (paths : List String) : Arguments :=
  withOptions { paths := paths.map Path.ofText } options

/-- An option with a value is not written like an option without one, so it names nothing but its
value. -/
theorem withOptions_of_value (arguments : Arguments) (word : OptionWord)
    (valued : '=' ∈ word.text.toList) :
    arguments.withOptions [word] =
      { arguments with
        check := gathered arguments.check word.checks
        suffix := gathered arguments.suffix word.suffixes } := by
  have silent (spellings : List String)
      (plain : ∀ spelling ∈ spellings, '=' ∉ spelling.toList) :
      word.isSpelled spellings = false := by
    rw [OptionWord.isSpelled, Bool.eq_false_iff]
    intro listed
    exact plain _ (List.contains_iff_mem.mp listed) valued
  simp [withOptions, silent ["--list-checks"] (by decide), silent ["--follow-symlinks"] (by decide),
    silent ["--quiet", "-q"] (by decide), silent ["--verbose", "-v"] (by decide)]

/-- An option without a value switches on what it is a spelling of. -/
theorem withFlag_eq (arguments : Arguments) (entry : String × Switch)
    (offered : entry ∈ flagSpellings) :
    withFlag arguments entry.2 = .ok (arguments.withOptions [.flag entry offered]) := by
  have listed := offered
  simp only [flagSpellings, List.mem_cons, List.not_mem_nil, or_false] at listed
  rcases listed with rfl | rfl | rfl | rfl | rfl | rfl <;>
    simp [withFlag, withOptions, gathered, OptionWord.checks, OptionWord.suffixes,
      OptionWord.isSpelled, OptionWord.text]

/-- Taking an option word adds what it names, and ends the group of operands. -/
theorem takeWords_option (progress : Progress) (word : OptionWord)
    (rest : List (String × WordClass)) :
    takeWords progress ((word.text, word.wordClass) :: rest) =
      takeWords
        { progress.interrupt with arguments := progress.arguments.withOptions [word] } rest := by
  cases word with
  | check name =>
    rw [withOptions_of_value progress.arguments (.check name) (by simp [OptionWord.text])]
    simp only [OptionWord.wordClass, takeWords]
    rfl
  | suffix ending =>
    rw [withOptions_of_value progress.arguments (.suffix ending) (by simp [OptionWord.text])]
    simp only [OptionWord.wordClass, takeWords]
    rfl
  | flag entry offered =>
    have lone : entry.2.takesValue = false := by
      have each : ∀ entry ∈ flagSpellings, entry.2.takesValue = false := by decide
      exact each entry offered
    have taken : [entry.2].foldlM withFlag progress.arguments =
        .ok (progress.arguments.withOptions [.flag entry offered]) := by
      rw [List.foldlM_cons, withFlag_eq progress.arguments entry offered]
      rfl
    rw [OptionWord.wordClass, takeWords.eq_def]
    simp only [lone, Bool.false_eq_true, if_false, flags]
    change [entry.2].foldlM withFlag progress.arguments >>= _ = _
    rw [taken]
    rfl

/-- Option words add up. They leave a group of operands awaited if it was. -/
theorem takeWords_options (progress : Progress) (options : List OptionWord)
    (rest : List (String × WordClass)) :
    ∃ group, (progress.group = .awaited → group = .awaited) ∧
      takeWords progress (options.map (fun word => (word.text, word.wordClass)) ++ rest) =
        takeWords ⟨progress.arguments.withOptions options, group, progress.refused⟩ rest := by
  induction options generalizing progress with
  | nil => exact ⟨progress.group, id, by rw [withOptions_nil]; rfl⟩
  | cons word others inductionHypothesis =>
    obtain ⟨group, waits, taken⟩ := inductionHypothesis
      { progress.interrupt with arguments := progress.arguments.withOptions [word] }
    refine ⟨group, ?_, ?_⟩
    -- An option closes a group that has begun. One that is still awaited stays so.
    · intro awaited
      exact waits (by simp [Progress.interrupt, awaited])
    · rw [List.map_cons, List.cons_append, takeWords_option, taken]
      simp only [withOptions_append]
      rfl

/-- Operands are paths, as long as their group is not closed. -/
theorem takeWords_operands (progress : Progress) (unclosed : progress.group ≠ .closed)
    (paths : List String) (rest : List (String × WordClass)) :
    ∃ group, takeWords progress (paths.map (fun path => (path, .operand)) ++ rest) =
      takeWords
        ⟨{ progress.arguments with paths := progress.arguments.paths ++ paths.map Path.ofText },
          group, progress.refused⟩ rest := by
  induction paths generalizing progress with
  | nil => exact ⟨progress.group, by simp⟩
  | cons path others inductionHypothesis =>
    have step : takeWords progress ((path, .operand) ::
        (others.map (fun path => (path, .operand)) ++ rest)) =
          takeWords (progress.operand path)
            (others.map (fun path => (path, .operand)) ++ rest) := by
      rw [takeWords]
    have taken : progress.operand path =
        ⟨{ progress.arguments with paths := progress.arguments.paths ++ [Path.ofText path] },
          .begun, progress.refused⟩ := by
      rw [Progress.operand, if_neg unclosed]
    obtain ⟨group, later⟩ := inductionHypothesis (progress.operand path) (by simp [taken])
    refine ⟨group, ?_⟩
    rw [List.map_cons, List.cons_append, step, later, taken]
    simp

/-! ## Whole command lines -/

/-- Words that are classified and taken without a refusal make arguments. -/
theorem ofWords_of_taken (words : List String) (classes : List (String × WordClass))
    (arguments : Arguments) (group : GroupState) (classified : classifyAll words = .ok classes)
    (taken : takeWords .start classes = .ok ⟨arguments, group, []⟩) :
    ofWords words = .ok arguments := by
  rw [ofWords, classified]
  change takeWords .start classes >>= _ = _
  rw [taken]
  rfl

/-- After the word that ends the options every text is a path, whatever it begins with. -/
theorem ofWords_of_terminated (options : List OptionWord) (paths : List String) :
    ofWords (options.map OptionWord.text ++ terminatorWord :: paths) =
      .ok (summary options paths) := by
  have ended : classifyAll (terminatorWord :: paths) =
      .ok ((terminatorWord, .terminator) :: paths.map fun path => (path, .operand)) := by
    rw [classifyAll, if_pos rfl]
  have classified := classifyAll_append OptionWord.text OptionWord.wordClass options
    (fun word _ => word.classify_text) _ _ ended
  obtain ⟨group, waits, named⟩ := takeWords_options .start options
    ((terminatorWord, .terminator) :: paths.map fun path => (path, .operand))
  obtain rfl := waits rfl
  obtain ⟨last, listed⟩ := takeWords_operands
    ⟨withOptions {} options, .begun, []⟩ nofun paths []
  rw [List.append_nil] at listed
  have opened : takeWords ⟨withOptions {} options, .awaited, []⟩
      ((terminatorWord, .terminator) :: paths.map fun path => (path, .operand)) =
        takeWords ⟨withOptions {} options, .begun, []⟩
          (paths.map fun path => (path, .operand)) := by
    rw [takeWords]
    rfl
  exact ofWords_of_taken _ _ _ last classified (by rw [named]; exact opened.trans listed)

/-- Texts that do not look like options are paths wherever they stand between option words. -/
theorem ofWords_of_plain (earlier later : List OptionWord) (paths : List String)
    (plain : ∀ path ∈ paths, path.toList.head? ≠ some '-') :
    ofWords (earlier.map OptionWord.text ++ (paths ++ later.map OptionWord.text)) =
      .ok (summary (earlier ++ later) paths) := by
  have options (words : List OptionWord) :=
    classifyAll_append OptionWord.text OptionWord.wordClass words
      fun word _ => word.classify_text
  have operands := classifyAll_append id (fun _ => .operand) paths
    fun path member => classify_of_operand path (plain path member)
  have classified := options earlier _ _ (operands _ _ (options later [] [] rfl))
  rw [List.map_id, List.append_nil, List.append_nil] at classified
  obtain ⟨group, waits, before⟩ := takeWords_options .start earlier
    (paths.map (fun path => (path, .operand)) ++ later.map fun word => (word.text, word.wordClass))
  obtain rfl := waits rfl
  -- In which state the paths leave their group does not matter: no operand comes after them.
  obtain ⟨middle, listed⟩ :=
    takeWords_operands ⟨withOptions {} earlier, .awaited, []⟩ nofun paths
      (later.map fun word => (word.text, word.wordClass))
  obtain ⟨last, -, after⟩ := takeWords_options
    ⟨{ withOptions {} earlier with paths := paths.map Path.ofText }, middle, []⟩ later []
  rw [List.append_nil] at after
  have whole : withOptions { withOptions {} earlier with paths := paths.map Path.ofText } later =
      summary (earlier ++ later) paths :=
        withOptions_append { paths := paths.map Path.ofText } earlier later
  rw [whole] at after
  exact ofWords_of_taken _ _ _ last classified (before.trans (listed.trans after))

end StraySemicolon.Arguments

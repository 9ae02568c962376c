import StraySemicolon.Proofs.NormalPath
import StraySemicolon.Proofs.OptionWords

/-!
# From words to a configuration and back

What a command line of complete option words and paths amounts to is written down without looking at
how it is taken apart (`StandFor`). The configuration that follows from it always has checks to look
for and endings to select by, and all of them can be written as option words again. Written out in
this way, together with the written forms of the paths, it is understood as the same configuration
of the same paths.
-/

namespace StraySemicolon

namespace Arguments

/-- What option words and the texts of paths stand for. -/
structure StandFor (options : List OptionWord) (paths : List String) (arguments : Arguments) :
    Prop where
  paths_eq : arguments.paths = paths.map Path.ofText
  /-- The checks are those asked for, in order. -/
  check_eq : arguments.check =
    let names := options.flatMap OptionWord.checks
    if names = [] then none else some names
  /-- The endings are those given, in order. -/
  suffix_eq : arguments.suffix =
    let endings := options.flatMap OptionWord.suffixes
    if endings = [] then none else some endings
  listChecks_iff : arguments.listChecks = true ↔ "--list-checks" ∈ options.map OptionWord.text
  followSymlinks_iff : arguments.followSymlinks = true ↔
    "--follow-symlinks" ∈ options.map OptionWord.text
  quiet_iff : arguments.quiet = true ↔
    "--quiet" ∈ options.map OptionWord.text ∨ "-q" ∈ options.map OptionWord.text
  verbose_iff : arguments.verbose = true ↔
    "--verbose" ∈ options.map OptionWord.text ∨ "-v" ∈ options.map OptionWord.text

theorem any_isSpelled_iff (options : List OptionWord) (spellings : List String) :
    options.any (·.isSpelled spellings) = true ↔
      ∃ spelling ∈ spellings, spelling ∈ options.map OptionWord.text := by
  simp only [List.any_eq_true, OptionWord.isSpelled, List.contains_iff_mem, List.mem_map]
  constructor
  · rintro ⟨word, member, listed⟩
    exact ⟨word.text, listed, word, member, rfl⟩
  · rintro ⟨_, listed, word, member, rfl⟩
    exact ⟨word, member, listed⟩

theorem summary_standFor (options : List OptionWord) (paths : List String) :
    StandFor options paths (summary options paths) where
  paths_eq := rfl
  check_eq := by simp [summary, withOptions, gathered]
  suffix_eq := by simp [summary, withOptions, gathered]
  listChecks_iff := by
    have named := any_isSpelled_iff options ["--list-checks"]
    simpa [summary, withOptions] using named
  followSymlinks_iff := by
    have named := any_isSpelled_iff options ["--follow-symlinks"]
    simpa [summary, withOptions] using named
  quiet_iff := by
    have named := any_isSpelled_iff options ["--quiet", "-q"]
    simpa [summary, withOptions] using named
  verbose_iff := by
    have named := any_isSpelled_iff options ["--verbose", "-v"]
    simpa [summary, withOptions] using named

end Arguments

open Arguments

namespace Config

/-! ## The configuration -/

/-- An ending with a dot in front. -/
def dotted (suffix : String) : String :=
  if ['.'].isPrefixOf suffix.toList then suffix else "." ++ suffix

theorem dot_prefix_dotted (suffix : String) : ['.'] <+: (dotted suffix).toList := by
  rw [dotted]
  split
  · next dot => exact List.isPrefixOf_iff_prefix.mp dot
  · simp

theorem dotted_of_dot_prefix (suffix : String) (dot : ['.'] <+: suffix.toList) :
    dotted suffix = suffix :=
  if_pos (List.isPrefixOf_iff_prefix.mpr dot)

/-- Whether something is to be looked for, something can be selected, and all of it can be written
as option words. -/
structure Expressible (config : Config) : Prop where
  some_check : config.checks ≠ []
  checks_plain : ∀ name ∈ config.checks, name ≠ terminatorWord
  some_suffix : config.suffixes ≠ []
  suffixes_dotted : ∀ suffix ∈ config.suffixes, ['.'] <+: suffix.toList

/-- What option words ask for: the checks that they name, or all of them, the endings that they
give, or the standard one, each with a dot in front, and whether links are followed. -/
structure AskedFor (options : List OptionWord) (config : Config) : Prop where
  checks_eq : config.checks =
    let names := options.flatMap OptionWord.checks
    if names = [] then Check.registeredNames else names
  suffixes_eq : config.suffixes =
    let endings := options.flatMap OptionWord.suffixes
    (if endings = [] then [".java"] else endings).map dotted
  suffixes_dotted : ∀ suffix ∈ config.suffixes, ['.'] <+: suffix.toList
  followSymlinks_iff : config.followSymlinks = true ↔
    "--follow-symlinks" ∈ options.map OptionWord.text

variable {options : List OptionWord} {paths : List String} {arguments : Arguments} {config : Config}

/-- The configuration of arguments is what their option words ask for. -/
theorem askedFor_ofArguments (standFor : StandFor options paths arguments) :
    AskedFor options (ofArguments arguments) := by
  have checks := standFor.check_eq
  have suffixes := standFor.suffix_eq
  have suffixes_eq : (ofArguments arguments).suffixes =
      (if options.flatMap OptionWord.suffixes = [] then [".java"]
        else options.flatMap OptionWord.suffixes).map dotted := by
    simp only [ofArguments]
    cases endings : options.flatMap OptionWord.suffixes <;> simp_all [dotted]
  refine ⟨?_, suffixes_eq, ?_, standFor.followSymlinks_iff⟩
  · simp only [ofArguments]
    cases names : options.flatMap OptionWord.checks <;> simp_all
  · intro suffix member
    rw [suffixes_eq] at member
    obtain ⟨ending, -, rfl⟩ := List.mem_map.mp member
    exact dot_prefix_dotted ending

theorem checks_plain_of_options (options : List OptionWord) :
    ∀ name ∈ options.flatMap OptionWord.checks, name ≠ terminatorWord := by
  intro name member
  obtain ⟨word, -, named⟩ := List.mem_flatMap.mp member
  cases word with
  | check given =>
    rw [List.mem_singleton.mp named]
    exact given.property
  | suffix ending => cases named
  | flag entry offered => cases named

/-- What option words ask for can be written as option words. -/
theorem AskedFor.expressible (asked : AskedFor options config) : config.Expressible where
  some_check := by
    rw [asked.checks_eq]
    simp only
    split
    · decide
    · assumption
  checks_plain := by
    have registered : ∀ name ∈ Check.registeredNames, name ≠ terminatorWord := by decide
    rw [asked.checks_eq]
    simp only
    split
    · exact registered
    · exact checks_plain_of_options options
  some_suffix := by
    rw [asked.suffixes_eq]
    simp only [ne_eq, List.map_eq_nil_iff]
    split
    · decide
    · assumption
  suffixes_dotted := asked.suffixes_dotted

/-! ## Writing the configuration as words -/

/-- The words that ask for a configuration. -/
def words (config : Config) : List String :=
  config.checks.map ("--check=" ++ ·) ++ config.suffixes.map ("--suffix=" ++ ·) ++
    if config.followSymlinks then ["--follow-symlinks"] else []

theorem exists_values (texts : List String) (plain : ∀ text ∈ texts, text ≠ terminatorWord) :
    ∃ values : List OptionValue, values.map Subtype.val = texts :=
  ⟨texts.pmap Subtype.mk plain, by simp [List.map_pmap]⟩

/-- The words of a configuration are option words that name what it holds. -/
theorem Expressible.exists_options (expressible : config.Expressible) :
    ∃ options : List OptionWord, options.map OptionWord.text = config.words ∧
      options.flatMap OptionWord.checks = config.checks ∧
      options.flatMap OptionWord.suffixes = config.suffixes := by
  -- An ending has a dot in front, so it is never the word that ends the options.
  have plain : ∀ suffix ∈ config.suffixes, suffix ≠ terminatorWord := by
    rintro _ member rfl
    exact absurd (expressible.suffixes_dotted _ member) (by decide)
  obtain ⟨names, checks⟩ := exists_values config.checks expressible.checks_plain
  obtain ⟨endings, suffixes⟩ := exists_values config.suffixes plain
  obtain ⟨links, follow, noCheck, noSuffix⟩ : ∃ links : List OptionWord,
      links.map OptionWord.text = (if config.followSymlinks then ["--follow-symlinks"] else []) ∧
        links.flatMap OptionWord.checks = [] ∧ links.flatMap OptionWord.suffixes = [] := by
    cases config.followSymlinks with
    | false => exact ⟨[], rfl, rfl, rfl⟩
    | true => exact ⟨[.flag ("--follow-symlinks", .followSymlinks) (by decide)], rfl, rfl, rfl⟩
  have otherChecks : (endings.map OptionWord.suffix).flatMap OptionWord.checks = [] := by
    rw [List.flatMap_map, List.flatMap_eq_nil_iff]
    exact fun _ _ => rfl
  have otherSuffixes : (names.map OptionWord.check).flatMap OptionWord.suffixes = [] := by
    rw [List.flatMap_map, List.flatMap_eq_nil_iff]
    exact fun _ _ => rfl
  refine ⟨names.map .check ++ endings.map .suffix ++ links, ?_, ?_, ?_⟩
  · rw [words, ← checks, ← suffixes, List.map_append, List.map_append, follow]
    simp [OptionWord.text, Function.comp_def]
  · rw [List.flatMap_append, List.flatMap_append, noCheck, otherChecks, ← checks]
    simp [OptionWord.checks, List.flatMap_map]
  · rw [List.flatMap_append, List.flatMap_append, noSuffix, otherSuffixes, ← suffixes]
    simp [OptionWord.suffixes, List.flatMap_map]

/-- The words of a configuration say whether links are followed. Values do not matter for this,
since they stand after an equals sign. -/
theorem mem_words_iff (config : Config) :
    "--follow-symlinks" ∈ config.words ↔ config.followSymlinks = true := by
  have valued (start value : String) (equals : '=' ∈ start.toList) :
      start ++ value ≠ "--follow-symlinks" := by
    intro same
    have inside : '=' ∈ (start ++ value).toList := by simp [equals]
    rw [same] at inside
    exact absurd inside (by decide)
  simp only [words, List.mem_append, List.mem_map]
  constructor
  · rintro ((⟨name, -, same⟩ | ⟨ending, -, same⟩) | listed)
    · exact absurd same (valued _ name (by decide))
    · exact absurd same (valued _ ending (by decide))
    · by_contra unset
      simp [unset] at listed
  · intro follows
    exact Or.inr (by simp [follows])

/-- The words of a configuration ask for that configuration. -/
theorem Expressible.eq_of_askedFor {other : Config} (expressible : config.Expressible)
    (asked : AskedFor options other) (written : options.map OptionWord.text = config.words)
    (checks : options.flatMap OptionWord.checks = config.checks)
    (suffixes : options.flatMap OptionWord.suffixes = config.suffixes) : other = config := by
  have sameChecks : other.checks = config.checks := by
    rw [asked.checks_eq, checks]
    exact if_neg expressible.some_check
  have sameSuffixes : other.suffixes = config.suffixes := by
    rw [asked.suffixes_eq, suffixes]
    simp only [if_neg expressible.some_suffix]
    exact (List.map_congr_left fun suffix member =>
      dotted_of_dot_prefix suffix (expressible.suffixes_dotted suffix member)).trans (List.map_id _)
  have sameLinks : other.followSymlinks = config.followSymlinks := by
    rw [Bool.eq_iff_iff, asked.followSymlinks_iff, written, mem_words_iff]
  calc other = ⟨other.checks, other.suffixes, other.followSymlinks⟩ := rfl
    _ = config := by rw [sameChecks, sameSuffixes, sameLinks]

end Config

/-! ## There and back -/

namespace Arguments

/-- Words and paths are understood as arguments if the words come first and the word that ends the
options stands between. If no path begins with a dash, the paths may also stand anywhere between the
words. -/
structure Understood (words paths : List String) (arguments : Arguments) : Prop where
  terminated : ofWords (words ++ terminatorWord :: paths) = .ok arguments
  around : (∀ path ∈ paths, path.toList.head? ≠ some '-') →
    ∀ earlier later, words = earlier ++ later →
      ofWords (earlier ++ paths ++ later) = .ok arguments

theorem understood_options (options : List OptionWord) (paths : List String) :
    Understood (options.map OptionWord.text) paths (summary options paths) where
  terminated := ofWords_of_terminated options paths
  around := by
    intro plain earlier later cut
    obtain ⟨before, after, rfl, rfl, rfl⟩ := List.map_eq_append_iff.mp cut
    rw [List.append_assoc]
    exact ofWords_of_plain before after paths plain

/-- Option words and paths are understood as what they stand for, in whatever order the options
come, and the paths are in normal form. The configuration has the checks that are asked for, or all
of them, and endings with a dot in front. It can be written as option words again, and with the
written forms of the paths these are understood as the same configuration and the same paths. -/
theorem arguments_round_trip (options : List OptionWord) (paths : List String) :
    ∃ arguments, Understood (options.map OptionWord.text) paths arguments ∧
      StandFor options paths arguments ∧ (∀ path ∈ arguments.paths, path.Normal) ∧
      Config.AskedFor options (Config.ofArguments arguments) ∧
      ∃ again : List OptionWord,
        again.map OptionWord.text = (Config.ofArguments arguments).words ∧
        ∃ reread,
          Understood (Config.ofArguments arguments).words (arguments.paths.map Path.text) reread ∧
          Config.ofArguments reread = Config.ofArguments arguments ∧
            reread.paths = arguments.paths := by
  have standFor := summary_standFor options paths
  have asked := Config.askedFor_ofArguments standFor
  refine ⟨summary options paths, understood_options options paths, standFor, ?_, asked, ?_⟩
  · rw [standFor.paths_eq]
    exact List.forall_mem_map.mpr fun text _ => Path.normal_ofText text
  · obtain ⟨again, written, checks, suffixes⟩ := asked.expressible.exists_options
    have rereadFor := summary_standFor again ((summary options paths).paths.map Path.text)
    have askedAgain := Config.askedFor_ofArguments rereadFor
    refine ⟨again, written, _, ?_,
      asked.expressible.eq_of_askedFor askedAgain written checks suffixes, ?_⟩
    · rw [← written]
      exact understood_options again _
    · rw [rereadFor.paths_eq, standFor.paths_eq, List.map_map, List.map_map]
      exact List.map_congr_left fun path _ => Path.ofText_text_ofText path

/-- Values that are empty, begin with dashes or hold blanks and equals signs, and paths on both
sides. -/
theorem round_trip_of_odd_values :
    let options : List OptionWord :=
      [.check ⟨"", by decide⟩, .flag ("-q", .quiet) (by decide),
        .suffix ⟨"=a b", by decide⟩, .check ⟨"--quiet", by decide⟩]
    (∀ path ∈ ["", "src//./main/"], path.toList.head? ≠ some '-') ∧
    ∃ arguments,
      ofWords ["--check=", "-q", "", "src//./main/", "--suffix==a b", "--check=--quiet"] =
        .ok arguments ∧
      StandFor options ["", "src//./main/"] arguments ∧
      ∃ reread, ofWords ["--check=", "--check=--quiet", "--suffix=.=a b", "--", ".", "src/main"] =
          .ok reread ∧
        Config.ofArguments reread = Config.ofArguments arguments ∧
          reread.paths = arguments.paths := by
  intro options
  have plain : ∀ path ∈ ["", "src//./main/"], path.toList.head? ≠ some '-' := by decide
  obtain ⟨arguments, understood, standFor, -, asked, again, written, reread, repeated,
    config, paths⟩ :=
    arguments_round_trip options ["", "src//./main/"]
  refine ⟨plain, arguments, ?_, standFor, reread, ?_, config, paths⟩
  · exact understood.around plain ["--check=", "-q"] ["--suffix==a b", "--check=--quiet"] rfl
  · have links : (Config.ofArguments arguments).followSymlinks = false := by
      rw [← Bool.not_eq_true]
      exact asked.followSymlinks_iff.not.mpr (by decide)
    have words : (Config.ofArguments arguments).words =
        ["--check=", "--check=--quiet", "--suffix=.=a b"] := by
      rw [Config.words, asked.checks_eq, asked.suffixes_eq, links]
      decide
    have texts : arguments.paths.map Path.text = [".", "src/main"] := by
      rw [standFor.paths_eq]
      decide
    have terminated := repeated.terminated
    rwa [words, texts] at terminated

end Arguments

end StraySemicolon

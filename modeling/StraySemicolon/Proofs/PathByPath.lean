import StraySemicolon.Proofs.Containment

/-!
# A run path by path

A run over paths is the sum of the runs over each path alone, as long as nothing ends it early. What
is printed and what is told of errors comes one path after the other, the numbers of files and
violations add up, and the worst status wins.

If a check is not known, nothing of this happens. The program says so before it asks the disk
anything, whatever the disk is.
-/

namespace StraySemicolon.CommandLine

/-- The same options with one path. -/
def alone (arguments : Arguments) (path : Path) : Arguments :=
  { arguments with paths := [path] }

/-- Notes are shown one after the other. -/
theorem shown_append (arguments : Arguments) (first second : List Note) :
    shown arguments (first ++ second) = shown arguments first ++ shown arguments second := by
  rw [shown, List.filter_append, List.map_append, unlines_append]
  rfl

theorem unlines_flatMap {α : Type} (lines : α → List String) (values : List α) :
    unlines (values.flatMap lines) =
      String.join (values.map fun value => unlines (lines value)) := by
  induction values with
  | nil => rfl
  | cons value rest inductionHypothesis =>
    rw [List.flatMap_cons, unlines_append, inductionHypothesis, List.map_cons, String.join_cons]

theorem shown_flatMap {α : Type} (arguments : Arguments) (notes : α → List Note)
    (values : List α) :
    shown arguments (values.flatMap notes) =
      String.join (values.map fun value => shown arguments (notes value)) := by
  simp only [shown]
  rw [List.filter_flatMap, List.map_flatMap, unlines_flatMap]

/-- Errors are shown at every verbosity. -/
theorem shown_failure (arguments : Arguments) (error : LintError) :
    shown arguments [.failure error] = unlines [error.message] := by
  have matters : (verbosity arguments).rank ≤ (Note.failure error).level.rank := by
    change (verbosity arguments).rank ≤ 3
    cases verbosity arguments <;> decide
  simp only [shown, List.filter_cons, matters]
  rfl

/-- The errors of a finished session are its notes and then the numbers. -/
theorem errors_concluded (arguments : Arguments) (report : Report)
    (finished : report.aborted = none) :
    (concluded arguments report).errors =
      shown arguments report.notes ++ shown arguments
        [.summary report.files report.violations] := by
  rw [concluded, finished, ← shown_append]

/-- The whole run of arguments is made of the runs over each of their paths alone. The report of a
run is what it has found; its session is what it leaves behind. -/
structure AddsUp (parser : Parser) (disk : Disk Id) (arguments : Arguments) (whole : Report)
    (part : Path → Report) :
    Prop where
  session_whole : session parser disk arguments = concluded arguments whole
  session_alone (path : Path) (given : path ∈ arguments.paths) :
    session parser disk (alone arguments path) = concluded arguments (part path)
  /-- The report of one path accounts for its files, unreadable ones included. -/
  accounts (path : Path) (given : path ∈ arguments.paths) :
    Accounts parser disk (Config.ofArguments arguments)
      (Discovery.filesOf disk (Config.ofArguments arguments) path) (part path)
  /-- What is printed is what is printed for each path, one after the other. -/
  output_eq : (session parser disk arguments).output =
    String.join
      (arguments.paths.map fun path => (session parser disk (alone arguments path)).output)
  lines_eq : whole.lines = arguments.paths.flatMap fun path => (part path).lines
  /-- So it is with the errors, and with everything else that is noted. -/
  errorLines_eq : whole.errorLines = arguments.paths.flatMap fun path => (part path).errorLines
  notes_eq : whole.notes = arguments.paths.flatMap fun path => (part path).notes
  /-- The notes are followed by the numbers, and these add up. -/
  errors_whole : (session parser disk arguments).errors =
    String.join (arguments.paths.map fun path => shown arguments (part path).notes) ++
      shown arguments [.summary (arguments.paths.map fun path => (part path).files).sum
        (arguments.paths.map fun path => (part path).violations).sum]
  errors_alone (path : Path) (given : path ∈ arguments.paths) :
    (session parser disk (alone arguments path)).errors =
      shown arguments (part path).notes ++
        shown arguments [.summary (part path).files (part path).violations]
  /-- The status is the greatest one. -/
  ending_alone (path : Path) (given : path ∈ arguments.paths) :
    (session parser disk (alone arguments path)).ending = .exit (part path).status
  ending_whole : (session parser disk arguments).ending =
    .exit ((arguments.paths.map fun path => (part path).status).foldr max 0)
  /-- Status 0 means that nothing was found and nothing went wrong. -/
  clean_iff : (session parser disk arguments).ending = .exit 0 ↔
    whole.lines = [] ∧ whole.errorLines = []
  /-- Status 2 means that some file could not be read. -/
  failing_iff : (session parser disk arguments).ending = .exit 2 ↔
    ∃ path ∈ arguments.paths,
      ∃ file ∈ Discovery.filesOf disk (Config.ofArguments arguments) path,
        ∃ error, Id.run (disk.read file) = .error (.system error)

/-- A run with known checks adds up if no fault escapes from any path. -/
theorem addsUp_of_contained (parser : Parser) (disk : Disk Id) (arguments : Arguments)
    (running : arguments.listChecks = false) (given : arguments.paths ≠ [])
    (registered : ∀ name ∈ (Config.ofArguments arguments).checks,
      name ∈ Check.registeredNames)
    (contained : ∀ path ∈ arguments.paths, Contained disk (Config.ofArguments arguments) path) :
    AddsUp parser disk arguments (report parser disk (Config.ofArguments arguments) arguments.paths)
      fun path => report parser disk (Config.ofArguments arguments) [path] := by
  obtain ⟨checks, known⟩ := Check.resolve_of_registered _ registered
  have whole := accounts_of_contained parser disk known arguments.paths contained
  have part (path : Path) (given : path ∈ arguments.paths) :
      Accounts parser disk (Config.ofArguments arguments)
        (Discovery.filesOf disk (Config.ofArguments arguments) path)
        (report parser disk (Config.ofArguments arguments) [path]) := by
    have single := accounts_of_contained parser disk known [path] fun other member =>
      contained other (List.mem_singleton.mp member ▸ given)
    rwa [List.flatMap_cons, List.flatMap_nil, List.append_nil] at single
  have finished : ∀ step ∈ arguments.paths.map fun path =>
      report parser disk (Config.ofArguments arguments) [path], step.aborted = none := by
    intro step member
    obtain ⟨path, given, same⟩ := List.mem_map.mp member
    rw [← same]
    exact (part path given).finished
  have sum := report_eq_sequence_alone parser disk (Config.ofArguments arguments) arguments.paths
  have parts := sum.trans (Report.sequence_of_finished _ finished)
  have lines_eq : (report parser disk (Config.ofArguments arguments) arguments.paths).lines =
      arguments.paths.flatMap fun path =>
        (report parser disk (Config.ofArguments arguments) [path]).lines := by
    rw [parts]
    exact List.flatMap_map _ _ _
  have notes_eq : (report parser disk (Config.ofArguments arguments) arguments.paths).notes =
      arguments.paths.flatMap fun path =>
        (report parser disk (Config.ofArguments arguments) [path]).notes := by
    rw [parts]
    exact List.flatMap_map _ _ _
  have session_whole := session_eq parser disk arguments running given checks known
  have session_alone (path : Path) :
      session parser disk (alone arguments path) =
        concluded arguments (report parser disk (Config.ofArguments arguments) [path]) :=
    session_eq parser disk (alone arguments path) running (List.cons_ne_nil _ _) checks known
  have ending : (session parser disk arguments).ending =
      .exit (report parser disk (Config.ofArguments arguments) arguments.paths).status := by
    rw [session_whole, ending_concluded, whole.finished]
  exact
    { session_whole
      session_alone := fun path _ => session_alone path
      accounts := part
      output_eq := by
        simp only [session_whole, session_alone, output_concluded]
        rw [lines_eq, unlines_flatMap]
      lines_eq
      errorLines_eq := by
        simp only [Report.errorLines]
        rw [notes_eq, List.filter_flatMap, List.map_flatMap]
      notes_eq
      errors_whole := by
        rw [session_whole, errors_concluded _ _ whole.finished, notes_eq, shown_flatMap, parts]
        simp only [List.map_map]
        rfl
      errors_alone := by
        intro path given
        rw [session_alone, errors_concluded _ _ (part path given).finished]
      ending_alone := by
        intro path given
        rw [session_alone, ending_concluded, (part path given).finished]
      ending_whole := by
        rw [ending, sum, Report.status_sequence _ finished, List.map_map]
        rfl
      clean_iff := by
        rw [ending, whole.status_eq]
        grind
      failing_iff := by
        have unreadable : (session parser disk arguments).ending = .exit 2 ↔
            (report parser disk (Config.ofArguments arguments) arguments.paths).errorLines ≠
              [] := by
          rw [ending, whole.status_eq]
          grind
        rw [unreadable, whole.errorLines_ne_nil_iff]
        simp only [List.mem_flatMap, failureOf_isSome_iff]
        constructor
        · rintro ⟨file, ⟨path, given, found⟩, failed⟩
          exact ⟨path, given, file, found, failed⟩
        · rintro ⟨path, given, file, found, failed⟩
          exact ⟨file, ⟨path, given, found⟩, failed⟩ }

/-- A run with known checks that meets no fault adds up. A run with an unknown check says which one
is the first, and does nothing else. -/
theorem runs_path_by_path (arguments : Arguments) (running : arguments.listChecks = false)
    (given : arguments.paths ≠ []) :
    (∀ (parser : Parser) (disk : Disk Id),
      (∀ name ∈ (Config.ofArguments arguments).checks, name ∈ Check.registeredNames) →
      (∀ path ∈ arguments.paths, ∀ fault, Id.run (disk.isDirectory path) ≠ .error fault) →
      (∀ path ∈ arguments.paths,
        ∀ file ∈ Discovery.filesOf disk (Config.ofArguments arguments) path,
          Id.run (disk.read file) ≠ .error .nullCharacter) →
      AddsUp parser disk arguments
        (report parser disk (Config.ofArguments arguments) arguments.paths)
          fun path => report parser disk (Config.ofArguments arguments) [path]) ∧
    ∀ (m : Type → Type) [Monad m] (parser : Parser) (disk : Disk m) (name : String),
      (Config.ofArguments arguments).checks.find? (fun name => name ∉ Check.registeredNames) =
        some name →
      runArguments parser disk arguments =
        pure ⟨"", unlines [UnknownCheck.message
          ⟨name, Check.registeredNames.mergeSort fun left right => decide (left ≤ right)⟩],
          .exit 2⟩ := by
  refine ⟨?known, ?unknown⟩
  case known =>
    intro parser disk registered found named
    refine addsUp_of_contained parser disk arguments running given registered ?_
    intro path member
    exact (contained_iff disk _ path).mpr ⟨found path member, named path member⟩
  case unknown =>
    intro m _ parser disk name first
    obtain ⟨unregistered, before, after, split, earlier⟩ :=
      List.find?_eq_some_iff_append.mp first
    have refused := Check.resolve_of_unregistered before name after (by simpa using earlier)
      (by simpa using unregistered)
    have some_path : arguments.paths.isEmpty = false := List.isEmpty_eq_false_iff.mpr given
    simp only [runArguments, running, some_path, split, refused, shown_failure]
    rfl

/-- A missing file next to a class with an issue: the missing file alone decides the status of the
whole. The same run with a misspelt check ends before it begins. -/
theorem runs_missing_file_and_misspelt_check :
    ({ paths := [gonePath, dirtyPath] } : Arguments).listChecks = false ∧
      ({ paths := [gonePath, dirtyPath] } : Arguments).paths ≠ [] ∧
      AddsUp dirtyParser dirtyDisk.toDisk { paths := [gonePath, dirtyPath] }
        (report dirtyParser dirtyDisk.toDisk {} [gonePath, dirtyPath])
          (fun path => report dirtyParser dirtyDisk.toDisk {} [path]) ∧
      (session dirtyParser dirtyDisk.toDisk { paths := [gonePath, dirtyPath] }).ending = .exit 2 ∧
      session dirtyParser dirtyDisk.toDisk
        { paths := [gonePath, dirtyPath], check := some ["semicolon"] } =
        ⟨"",
          "Unknown check 'semicolon' (available: UnnecessarySemicolonAfterTypeMemberDeclaration)\n",
          .exit 2⟩ := by
  have given (check : Option (List String)) :
      ({ paths := [gonePath, dirtyPath], check } : Arguments).paths ≠ [] := List.cons_ne_nil _ _
  have found := fun path member =>
    (contained_iff dirtyDisk.toDisk {} path).mp (contained_of_mem_dirty path member)
  have sum := (runs_path_by_path { paths := [gonePath, dirtyPath] } rfl (given none)).1 dirtyParser
    dirtyDisk.toDisk
    (fun name member => member) (fun path member => (found path member).1)
    (fun path member => (found path member).2)
  have refused :=
    (runs_path_by_path { paths := [gonePath, dirtyPath], check := some ["semicolon"] } rfl
      (given _)).2 Id dirtyParser dirtyDisk.toDisk "semicolon" (by decide)
  refine ⟨rfl, given none, sum, ?_, ?_⟩
  · refine sum.failing_iff.mpr ⟨gonePath, List.mem_cons_self, gonePath, ?_, _, read_gonePath⟩
    rw [Discovery.filesOf_of_not_directory _ _ _ isDirectory_gonePath]
    exact List.mem_singleton_self _
  · have available : Check.registeredNames.mergeSort (fun left right => decide (left ≤ right)) =
        Check.registeredNames := List.mergeSort_singleton _
    rw [session, refused, available]
    rfl

end StraySemicolon.CommandLine

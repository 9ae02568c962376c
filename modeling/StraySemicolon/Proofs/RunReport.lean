import Mathlib.Algebra.GroupWithZero.Nat
import StraySemicolon.CommandLine
import StraySemicolon.Proofs.Search
import StraySemicolon.Proofs.Selection

/-!
# The report of a run

A run over files goes from one step to the next: a file is linted, or a path that the user gave
cannot be looked up. Each step has a report of its own, and the report of the run is made of these,
one after the other, up to the first step that ends the run (`report_eq_sequence`). Whether a step
is reached therefore depends on the steps before it, and what it reports does not.

What a file adds to the report is read off the disk: its issues if it can be read, and one line on
the error output if it cannot (`Accounts`). The disk does not change while the program runs, so the
same question always has the same answer.
-/

namespace StraySemicolon

namespace Report

theorem empty_append (report : Report) : append {} report = report := by
  cases report
  simp [append]

theorem append_assoc (first second third : Report) :
    (first.append second).append third = first.append (second.append third) := by
  simp [append, Nat.add_assoc, Bool.or_assoc, Option.orElse_eq_or, Option.or_assoc]

/-- The reports of steps one after the other, up to the first step that ends the run. -/
def sequence : List Report → Report
  | [] => {}
  | first :: rest => if first.aborted.isSome then first else first.append (sequence rest)

/-- What comes after some steps counts unless one of them ended the run. -/
theorem sequence_append (first second : List Report) :
    sequence (first ++ second) =
      if (sequence first).aborted.isSome then sequence first
      else (sequence first).append (sequence second) := by
  induction first with
  | nil => simp [sequence, empty_append]
  | cons step rest inductionHypothesis =>
    rw [List.cons_append, sequence, sequence, inductionHypothesis]
    cases ended : step.aborted with
    | some fault => simp [ended]
    | none =>
      have handed : (step.append (sequence rest)).aborted = (sequence rest).aborted := by
        simp [append, ended]
      simp only [Option.isSome_none, Bool.false_eq_true, if_false, handed]
      split
      · rfl
      · rw [append_assoc]

/-- If no step ends the run, every step counts. -/
theorem sequence_cons_of_finished (first : Report) (rest : List Report)
    (finished : first.aborted = none) :
    sequence (first :: rest) = first.append (sequence rest) := by
  rw [sequence, finished]
  rfl

/-- If no step ends the run, everything is put together: lines and notes in order, and numbers added
up. -/
theorem sequence_of_finished (steps : List Report)
    (finished : ∀ step ∈ steps, step.aborted = none) :
    sequence steps =
      { lines := steps.flatMap lines
        notes := steps.flatMap notes
        files := (steps.map files).sum
        violations := (steps.map violations).sum
        failed := steps.any failed } := by
  induction steps with
  | nil => rfl
  | cons first rest inductionHypothesis =>
    have here := finished first List.mem_cons_self
    have later :=
      inductionHypothesis fun step member => finished step (List.mem_cons_of_mem _ member)
    rw [sequence, later, here]
    simp [append, here]

/-- The lines of a report that tell of errors. -/
def errorLines (report : Report) : List String :=
  (report.notes.filter fun note => note.level = .error).map Note.message

theorem errorLines_append (first second : Report) :
    (first.append second).errorLines = first.errorLines ++ second.errorLines := by
  simp [errorLines, append]

/-- The status of two reports in a row is the greater one. -/
theorem status_append (first second : Report) :
    (first.append second).status = max first.status second.status := by
  rw [status, status, status]
  cases firstFailed : first.failed with
  | true =>
    have failing : (first.append second).failed = true := by rw [append, firstFailed, Bool.true_or]
    grind
  | false =>
    have same : (first.append second).failed = second.failed := by
      rw [append, firstFailed, Bool.false_or]
    have total : (first.append second).violations = first.violations + second.violations := rfl
    grind

/-- The status of finished steps is the greatest one. -/
theorem status_sequence (steps : List Report) (finished : ∀ step ∈ steps, step.aborted = none) :
    (sequence steps).status = (steps.map status).foldr max 0 := by
  induction steps with
  | nil => rfl
  | cons first rest inductionHypothesis =>
    have later :=
      inductionHypothesis fun step member => finished step (List.mem_cons_of_mem _ member)
    rw [sequence_cons_of_finished first rest (finished first List.mem_cons_self),
      status_append, later]
    rfl

/-- Steps can be grouped: the reports of the groups make the same whole. -/
theorem sequence_flatMap {α : Type} (steps : α → List Report) (values : List α) :
    sequence (values.flatMap steps) =
      sequence (values.map fun value => sequence (steps value)) := by
  induction values with
  | nil => rfl
  | cons value rest inductionHypothesis =>
    rw [List.flatMap_cons, sequence_append, inductionHypothesis]
    rfl

/-- A step that ends the run is the last one that counts. -/
theorem sequence_of_aborted (before : List Report) (step : Report) (after : List Report)
    (finished : ∀ earlier ∈ before, earlier.aborted = none)
    (ended : step.aborted.isSome = true) :
    sequence (before ++ step :: after) = (sequence before).append step := by
  rw [sequence_append, sequence_of_finished before finished, sequence, if_pos ended]
  rfl

/-- Steps print their lines one after the other, up to a step that ends the run. -/
theorem lines_sequence (steps : List Report) :
    ∃ reached, reached <+: steps ∧ (sequence steps).lines = reached.flatMap lines ∧
      ((sequence steps).aborted = none → reached = steps) := by
  induction steps with
  | nil => exact ⟨[], List.prefix_rfl, rfl, fun _ => rfl⟩
  | cons first rest inductionHypothesis =>
    cases ended : first.aborted with
    | some fault =>
      refine ⟨[first], ⟨rest, rfl⟩, ?_, ?_⟩
      · simp [sequence, ended]
      · simp [sequence, ended]
    | none =>
      obtain ⟨reached, before, printed, whole⟩ := inductionHypothesis
      rw [sequence_cons_of_finished first rest ended]
      refine ⟨first :: reached, List.cons_prefix_cons.mpr ⟨rfl, before⟩, ?_, ?_⟩
      · rw [append, printed, List.flatMap_cons]
      · intro finished
        rw [append, ended] at finished
        rw [whole (by simpa using finished)]

end Report

namespace CommandLine

/-- The report of one file. -/
def fileReport (parser : Parser) (disk : Disk Id) (config : Config) (file : Path) : Report :=
  .ofFile file (Id.run (lintFile parser disk file (some config.checks)))

/-- A file whose path holds a NUL character ends the run and says nothing. -/
theorem fileReport_of_unnamed (parser : Parser) (disk : Disk Id) (config : Config) (file : Path)
    (unnamed : Id.run (disk.read file) = .error .nullCharacter) :
    fileReport parser disk config file =
      { notes := [.reading file], files := 1, aborted := some .nullCharacter } := by
  simp only [fileReport, lintFile, Id.run_bind, unnamed]
  rfl

/-- A file that the system refuses to read is told of. -/
theorem fileReport_of_refused (parser : Parser) (disk : Disk Id) (config : Config) (file : Path)
    (error : SystemError) (refused : Id.run (disk.read file) = .error (.system error)) :
    fileReport parser disk config file =
      { notes := [.reading file, .failure (.unreadable file.text error)], files := 1,
        failed := true } := by
  simp only [fileReport, lintFile, Id.run_bind, refused]
  rfl

/-- The reports of the steps for one path that the user gave. -/
def steps (parser : Parser) (disk : Disk Id) (config : Config) (path : Path) : List Report :=
  match Id.run (Discovery.expand disk config path) with
  | .ok files => files.map (fileReport parser disk config)
  | .error fault => [{ aborted := some fault }]

/-- The steps for a path that can be looked up are the reports of its files. -/
theorem steps_of_found (parser : Parser) (disk : Disk Id) (config : Config) (path : Path)
    (found : ∀ fault, Id.run (disk.isDirectory path) ≠ .error fault) :
    steps parser disk config path =
      (Discovery.filesOf disk config path).map (fileReport parser disk config) := by
  rw [steps, Discovery.filesOf, Discovery.run_expand]
  cases answered : Id.run (disk.isDirectory path) with
  | ok isDirectory => rfl
  | error fault => exact absurd answered (found fault)

/-- The report of a run over paths. -/
def report (parser : Parser) (disk : Disk Id) (config : Config) (paths : List Path) : Report :=
  Id.run (lintPaths parser disk config paths)

/-- What a run of the program with arguments leaves behind. -/
def session (parser : Parser) (disk : Disk Id) (arguments : Arguments) : Session :=
  Id.run (runArguments parser disk arguments)

theorem run_andThen (first : Report) (next : Id Report) :
    Id.run (andThen first next) =
      if first.aborted.isSome then first else first.append (Id.run next) := by
  unfold andThen
  split <;> rfl

/-- Files are linted one after the other, until one of them ends the run. -/
theorem run_lintFiles (parser : Parser) (disk : Disk Id) (config : Config) (files : List Path) :
    Id.run (lintFiles parser disk config files) =
      Report.sequence (files.map (fileReport parser disk config)) := by
  induction files with
  | nil => rfl
  | cons file rest inductionHypothesis =>
    have step : Id.run (lintFiles parser disk config (file :: rest)) =
        Id.run (andThen (fileReport parser disk config file) (lintFiles parser disk config rest)) :=
          rfl
    rw [step, run_andThen, inductionHypothesis]
    rfl

/-- A path is expanded, and its files are linted before the next path is looked at. -/
theorem report_cons (parser : Parser) (disk : Disk Id) (config : Config) (path : Path)
    (rest : List Path) :
    report parser disk config (path :: rest) =
      match Id.run (Discovery.expand disk config path) with
      | .error fault => { aborted := some fault }
      | .ok files =>
        let first := Id.run (lintFiles parser disk config files)
        if first.aborted.isSome then first else first.append (report parser disk config rest) := by
  have opened : report parser disk config (path :: rest) =
      match Id.run (Discovery.expand disk config path) with
      | .error fault => ({ aborted := some fault } : Report)
      | .ok files =>
        Id.run (andThen (Id.run (lintFiles parser disk config files))
          (lintPaths parser disk config rest)) := by
    rw [report, lintPaths]
    simp only [Id.run_bind]
    cases Id.run (Discovery.expand disk config path) <;> rfl
  rw [opened]
  split
  · rfl
  · exact run_andThen _ _

/-- A run over paths goes through the steps for each path in turn, until one of them ends it. -/
theorem report_eq_sequence (parser : Parser) (disk : Disk Id) (config : Config)
    (paths : List Path) :
    report parser disk config paths =
      Report.sequence (paths.flatMap (steps parser disk config)) := by
  induction paths with
  | nil => rfl
  | cons path rest inductionHypothesis =>
    rw [report_cons, List.flatMap_cons, Report.sequence_append, ← inductionHypothesis, steps]
    cases Id.run (Discovery.expand disk config path) with
    | error fault => rfl
    | ok files => simp only [run_lintFiles]

/-- A run over paths goes through the runs over each path alone. -/
theorem report_eq_sequence_alone (parser : Parser) (disk : Disk Id) (config : Config)
    (paths : List Path) :
    report parser disk config paths =
      Report.sequence (paths.map fun path => report parser disk config [path]) := by
  have alone (path : Path) :
      report parser disk config [path] = Report.sequence (steps parser disk config path) := by
    rw [report_eq_sequence, List.flatMap_cons, List.flatMap_nil, List.append_nil]
  simp only [alone]
  rw [report_eq_sequence, Report.sequence_flatMap]

theorem unlines_append (first second : List String) :
    unlines (first ++ second) = unlines first ++ unlines second := by
  rw [unlines, List.map_append, String.join_append]
  rfl

/-- A session prints the lines of its report, however it ends. -/
theorem output_concluded (arguments : Arguments) (report : Report) :
    (concluded arguments report).output = unlines report.lines := by
  rw [concluded]
  cases report.aborted <;> rfl

/-- A session ends with the fault of its report if there is one. -/
theorem ending_concluded (arguments : Arguments) (report : Report) :
    (concluded arguments report).ending =
      match report.aborted with
      | some fault => .fault fault
      | none => .exit report.status := by
  rw [concluded]
  cases report.aborted <;> rfl

/-- If there is something to do and the checks are known, the session is that of the report. -/
theorem session_eq (parser : Parser) (disk : Disk Id) (arguments : Arguments)
    (running : arguments.listChecks = false) (given : arguments.paths ≠ []) (checks : List Check)
    (known : Check.resolve (some (Config.ofArguments arguments).checks) = .ok checks) :
    session parser disk arguments =
      concluded arguments (report parser disk (Config.ofArguments arguments) arguments.paths) := by
  have some_path : arguments.paths.isEmpty = false := List.isEmpty_eq_false_iff.mpr given
  simp only [session, runArguments, running, some_path, known]
  rfl

end CommandLine

/-! ## What a file adds to a report -/

/-- The issues that the text of a file has under a configuration. -/
def issuesOf (parser : Parser) (config : Config) (source : Bytes) : List Issue :=
  match (lint (parser.parse source) (some config.checks)).outcome with
  | .ok found => found
  | .error _ => []

/-- The lines that are printed for a file. -/
def linesOf (parser : Parser) (disk : Disk Id) (config : Config) (file : Path) : List String :=
  match Id.run (disk.read file) with
  | .ok source => (issuesOf parser config source).map fun issue => issue.format file.text
  | .error _ => []

/-- The line that tells why a file cannot be read, if the system says why. -/
def failureOf (disk : Disk Id) (file : Path) : Option String :=
  match Id.run (disk.read file) with
  | .error (.system error) => some (LintError.unreadable file.text error).message
  | _ => none

/-- A file fails if the system refuses to read it. -/
theorem failureOf_isSome_iff (disk : Disk Id) (file : Path) :
    (failureOf disk file).isSome = true ↔
      ∃ error, Id.run (disk.read file) = .error (.system error) := by
  rw [failureOf]
  cases Id.run (disk.read file) with
  | ok source => simp
  | error fault => cases fault <;> simp

/-- A report accounts for files if it prints their issues, tells of the files that cannot be read,
and has counted every file and every issue. -/
structure Accounts (parser : Parser) (disk : Disk Id) (config : Config) (files : List Path)
    (report : Report) : Prop where
  lines_eq : report.lines = files.flatMap (linesOf parser disk config)
  errorLines_eq : report.errorLines = files.filterMap (failureOf disk)
  files_eq : report.files = files.length
  violations_eq : report.violations = report.lines.length
  failed_eq : report.failed = files.any fun file => (failureOf disk file).isSome
  finished : report.aborted = none

namespace Accounts

variable {parser : Parser} {disk : Disk Id} {config : Config}

theorem nil : Accounts parser disk config [] {} :=
  ⟨rfl, rfl, rfl, rfl, rfl, rfl⟩

/-- Reports in a row account for the files of both. -/
theorem append {files others : List Path} {first second : Report}
    (firstAccounts : Accounts parser disk config files first)
    (secondAccounts : Accounts parser disk config others second) :
    Accounts parser disk config (files ++ others) (first.append second) where
  lines_eq := by
    rw [Report.append, List.flatMap_append, firstAccounts.lines_eq, secondAccounts.lines_eq]
  errorLines_eq := by
    rw [Report.errorLines_append, List.filterMap_append, firstAccounts.errorLines_eq,
      secondAccounts.errorLines_eq]
  files_eq := by
    rw [Report.append, List.length_append, firstAccounts.files_eq, secondAccounts.files_eq]
  violations_eq := by
    rw [Report.append, List.length_append, firstAccounts.violations_eq,
      secondAccounts.violations_eq]
  failed_eq := by
    rw [Report.append, List.any_append, firstAccounts.failed_eq, secondAccounts.failed_eq]
  finished := by
    rw [Report.append, firstAccounts.finished, secondAccounts.finished]
    rfl

/-- There are error lines exactly if some file failed. -/
theorem errorLines_ne_nil_iff {files : List Path} {report : Report}
    (accounts : Accounts parser disk config files report) :
    report.errorLines ≠ [] ↔ ∃ file ∈ files, (failureOf disk file).isSome = true := by
  rw [accounts.errorLines_eq, Ne, List.filterMap_eq_nil_iff]
  simp [Option.isSome_iff_ne_none]

/-- The status is decided by what was told: an error first, and then an issue. -/
theorem status_eq {files : List Path} {report : Report}
    (accounts : Accounts parser disk config files report) :
    report.status = if report.errorLines ≠ [] then 2 else if report.lines = [] then 0 else 1 := by
  have failed : report.failed = true ↔ report.errorLines ≠ [] := by
    rw [accounts.errorLines_ne_nil_iff, accounts.failed_eq, List.any_eq_true]
  have clean : report.violations = 0 ↔ report.lines = [] := by
    rw [accounts.violations_eq, List.length_eq_zero_iff]
  simp only [Report.status, failed, clean]

/-- Nothing that happens in a lint run is an error. -/
theorem errors_of_trace (file : Path) (trace : List TraceEvent) :
    ((Note.reading file :: trace.map Note.event).filter fun note => note.level = .error) = [] := by
  rw [List.filter_eq_nil_iff]
  intro note member
  rcases List.mem_cons.mp member with reading | event
  · simp [reading, Note.level]
  · obtain ⟨happened, _, same⟩ := List.mem_map.mp event
    rw [← same]
    cases happened <;> simp [Note.level]

variable (parser)

/-- If the checks are known, a file that can be read is linted. -/
theorem fileReport_of_read (checks : List Check)
    (known : Check.resolve (some config.checks) = .ok checks) (file : Path) (source : Bytes)
    (answer : Id.run (disk.read file) = .ok source) :
    CommandLine.fileReport parser disk config file =
      { lines := (issuesOf parser config source).map fun issue => issue.format file.text
        notes :=
          .reading file :: (lint (parser.parse source) (some config.checks)).trace.map Note.event
        files := 1
        violations := (issuesOf parser config source).length } := by
  simp only [CommandLine.fileReport, lintFile, Id.run_bind, issuesOf, lint, known, answer]
  rfl

/-- If the checks are known, a file is accounted for unless its path holds a NUL character. -/
theorem fileReport (checks : List Check)
    (known : Check.resolve (some config.checks) = .ok checks) (file : Path)
    (named : Id.run (disk.read file) ≠ .error .nullCharacter) :
    Accounts parser disk config [file] (CommandLine.fileReport parser disk config file) := by
  cases answer : Id.run (disk.read file) with
  | ok source =>
    rw [fileReport_of_read parser checks known file source answer]
    exact
      { lines_eq := by rw [List.flatMap_singleton, linesOf, answer]
        errorLines_eq := by
          rw [Report.errorLines, errors_of_trace, List.filterMap_cons, failureOf, answer]
          rfl
        files_eq := rfl
        violations_eq := (List.length_map ..).symm
        failed_eq := by
          rw [List.any_cons, failureOf, answer]
          rfl
        finished := rfl }
  | error fault =>
    cases fault with
    | nullCharacter => exact absurd answer named
    | system error =>
      rw [CommandLine.fileReport_of_refused parser disk config file error answer]
      exact
        { lines_eq := by rw [List.flatMap_singleton, linesOf, answer]
          errorLines_eq := by
            rw [List.filterMap_cons, failureOf, answer]
            rfl
          files_eq := rfl
          violations_eq := rfl
          failed_eq := by
            rw [List.any_cons, failureOf, answer]
            rfl
          finished := rfl }

/-- The files of a run are accounted for one after the other. -/
theorem sequence (checks : List Check)
    (known : Check.resolve (some config.checks) = .ok checks) (files : List Path)
    (named : ∀ file ∈ files, Id.run (disk.read file) ≠ .error .nullCharacter) :
    Accounts parser disk config files
      (Report.sequence (files.map (CommandLine.fileReport parser disk config))) := by
  induction files with
  | nil => exact nil
  | cons file rest inductionHypothesis =>
    have here := fileReport parser checks known file (named file List.mem_cons_self)
    have later :=
      inductionHypothesis fun other member => named other (List.mem_cons_of_mem _ member)
    rw [List.map_cons, Report.sequence_cons_of_finished _ _ here.finished]
    exact here.append later

end Accounts

end StraySemicolon

import Mathlib.Data.List.Basic
import Mathlib.Data.List.TakeWhile
import StraySemicolon.Proofs.MemoryLookup
import StraySemicolon.Proofs.RunReport

/-!
# Which failures a run survives

A file that the system refuses to read is told of, and the run goes on. Two faults end the run where
they are met: the system refuses to say whether a path leads to a directory, for another reason than
that nothing is there, or a file is to be read whose path holds a NUL character. `Escapes` names
these. Everything that was handled before is still printed, and nothing after it is looked at, so
the numbers of files and violations are not told either.
-/

namespace StraySemicolon

/-- A path brings a fault into a run that nothing catches. -/
inductive Escapes (disk : Disk Id) (config : Config) (path : Path) : Fault → Prop
  /-- The path cannot be looked up, and not because nothing is there. -/
  | lookup (error : SystemError)
      (refused : Id.run (disk.leadsToDirectory path) = .error (.system error))
      (present : error.isAbsence = false) :
      Escapes disk config path (.system (error.about path.text))
  /-- The path stands for a file that no name can reach. -/
  | name (file : Path) (found : file ∈ Discovery.filesOf disk config path)
      (unnamed : Id.run (disk.read file) = .error .nullCharacter) :
      Escapes disk config path .nullCharacter

/-- Nothing escapes from a path. -/
def Contained (disk : Disk Id) (config : Config) (path : Path) : Prop :=
  ∀ fault, ¬ Escapes disk config path fault

/-- Whether the system can be asked for the text of a file. -/
def hasName (disk : Disk Id) (file : Path) : Bool :=
  match Id.run (disk.read file) with
  | .error .nullCharacter => false
  | _ => true

theorem hasName_eq_false_iff (disk : Disk Id) (file : Path) :
    hasName disk file = false ↔ Id.run (disk.read file) = .error .nullCharacter := by
  rw [hasName]
  split
  · simp_all
  · simp_all

/-- The files of a path that a run handles: those before the first one without a name. -/
def handledFiles (disk : Disk Id) (config : Config) (path : Path) : List Path :=
  (Discovery.filesOf disk config path).takeWhile (hasName disk)

theorem named_of_mem_handledFiles (disk : Disk Id) (config : Config) (path file : Path)
    (handled : file ∈ handledFiles disk config path) :
    Id.run (disk.read file) ≠ .error .nullCharacter := by
  intro unnamed
  have passed : hasName disk file = true := List.mem_takeWhile_imp handled
  rw [(hasName_eq_false_iff disk file).mpr unnamed] at passed
  exact Bool.false_ne_true passed

/-- Nothing is handled of a path that cannot be looked up. -/
theorem handledFiles_of_failed (disk : Disk Id) (config : Config) (path : Path) (fault : Fault)
    (failed : Id.run (disk.isDirectory path) = .error fault) :
    handledFiles disk config path = [] := by
  rw [handledFiles, Discovery.filesOf_of_failed disk config path fault failed]
  rfl

/-- The lookup of a path that the user gave fails unless the system answers or says that nothing is
there. -/
theorem isDirectory_eq_error_iff (disk : Disk Id) (path : Path) (fault : Fault) :
    Id.run (disk.isDirectory path) = .error fault ↔
      ∃ error, Id.run (disk.leadsToDirectory path) = .error (.system error) ∧
        error.isAbsence = false ∧ fault = .system (error.about path.text) := by
  rw [Disk.run_isDirectory]
  cases Id.run (disk.leadsToDirectory path) with
  | ok answer => simp
  | error refusal =>
    cases refusal with
    | nullCharacter => simp
    | system error =>
      cases absence : error.isAbsence with
      | true => simp [absence]
      | false =>
        simp only [absence, Bool.false_eq_true, if_false, Except.error.injEq]
        constructor
        · intro met
          exact ⟨error, rfl, absence, met.symm⟩
        · rintro ⟨_, same, _, met⟩
          cases same
          exact met.symm

/-- Nothing escapes from a path if its lookup succeeds and every file that it stands for has a
name. -/
theorem contained_iff (disk : Disk Id) (config : Config) (path : Path) :
    Contained disk config path ↔
      (∀ fault, Id.run (disk.isDirectory path) ≠ .error fault) ∧
        ∀ file ∈ Discovery.filesOf disk config path,
          Id.run (disk.read file) ≠ .error .nullCharacter := by
  constructor
  · intro contained
    refine ⟨?_, ?_⟩
    · intro fault failed
      obtain ⟨error, refused, present, _⟩ :=
        (isDirectory_eq_error_iff disk path fault).mp failed
      exact contained _ (.lookup error refused present)
    · intro file found unnamed
      exact contained _ (.name file found unnamed)
  · rintro ⟨found, named⟩ fault escapes
    cases escapes with
    | lookup error refused present =>
      exact found _ ((isDirectory_eq_error_iff disk path _).mpr ⟨error, refused, present, rfl⟩)
    | name file member unnamed => exact named file member unnamed

/-- Nothing escapes from a path to a file that has a name. -/
theorem contained_of_not_directory (disk : Disk Id) (config : Config) (path : Path)
    (isFile : Id.run (disk.isDirectory path) = .ok false)
    (named : Id.run (disk.read path) ≠ .error .nullCharacter) : Contained disk config path := by
  rw [contained_iff, isFile, Discovery.filesOf_of_not_directory disk config path isFile]
  refine ⟨nofun, ?_⟩
  intro file member
  rw [List.mem_singleton.mp member]
  exact named

namespace Contained

variable {disk : Disk Id} {config : Config} {path : Path}

/-- The steps for a contained path are the reports of its files. -/
theorem steps_eq (parser : Parser) (contained : Contained disk config path) :
    CommandLine.steps parser disk config path =
      (Discovery.filesOf disk config path).map (CommandLine.fileReport parser disk config) :=
  have found := ((contained_iff disk config path).mp contained).1
  CommandLine.steps_of_found parser disk config path found

/-- Every file of a contained path has a name. -/
theorem named (contained : Contained disk config path) (file : Path)
    (found : file ∈ Discovery.filesOf disk config path) :
    Id.run (disk.read file) ≠ .error .nullCharacter :=
  ((contained_iff disk config path).mp contained).2 file found

/-- The steps for contained paths are the reports of all their files. -/
theorem flatMap_steps (parser : Parser) {paths : List Path}
    (contained : ∀ path ∈ paths, Contained disk config path) :
    paths.flatMap (CommandLine.steps parser disk config) =
      (paths.flatMap (Discovery.filesOf disk config)).map
        (CommandLine.fileReport parser disk config) := by
  rw [List.map_flatMap]
  exact List.flatMap_congr fun path member => (contained path member).steps_eq parser

end Contained

/-- The steps for a path that lets a fault escape: first the reports of the handled files, then a
step that ends the run with the fault and says nothing. -/
theorem Escapes.steps_eq (parser : Parser) {disk : Disk Id} {config : Config} {path : Path}
    {fault : Fault} (escapes : Escapes disk config path fault) :
    ∃ last rest,
      CommandLine.steps parser disk config path =
        (handledFiles disk config path).map (CommandLine.fileReport parser disk config) ++
          last :: rest ∧
      last.aborted = some fault ∧ last.lines = [] ∧ last.errorLines = [] := by
  cases escapes with
  | lookup error refused present =>
    have failed := (isDirectory_eq_error_iff disk path _).mpr ⟨error, refused, present, rfl⟩
    refine ⟨{ aborted := some _ }, [], ?_, rfl, rfl, rfl⟩
    rw [CommandLine.steps, handledFiles_of_failed disk config path _ failed,
      Discovery.run_expand, failed]
    rfl
  | name file found unnamed =>
    have lookedUp : ∀ fault, Id.run (disk.isDirectory path) ≠ .error fault := by
      intro fault failed
      rw [Discovery.filesOf_of_failed disk config path fault failed] at found
      exact absurd found List.not_mem_nil
    have listed := CommandLine.steps_of_found parser disk config path lookedUp
    have split : handledFiles disk config path ++
        (Discovery.filesOf disk config path).dropWhile (hasName disk) =
          Discovery.filesOf disk config path :=
      List.takeWhile_append_dropWhile
    have first_missed :=
      List.head?_dropWhile_not (hasName disk) (Discovery.filesOf disk config path)
    cases missed : (Discovery.filesOf disk config path).dropWhile (hasName disk) with
    | nil =>
      have passed := List.dropWhile_eq_nil_iff.mp missed file found
      rw [(hasName_eq_false_iff disk file).mpr unnamed] at passed
      exact absurd passed Bool.false_ne_true
    | cons first others =>
      rw [missed] at split first_missed
      have silent := CommandLine.fileReport_of_unnamed parser disk config first
        ((hasName_eq_false_iff disk first).mp first_missed)
      refine ⟨CommandLine.fileReport parser disk config first,
        others.map (CommandLine.fileReport parser disk config), ?_, ?_, ?_, ?_⟩
      · rw [listed, ← split, List.map_append, List.map_cons]
      · rw [silent]
      · rw [silent]
      · rw [silent]
        rfl

/-- If something escapes from some path, there is a first such path. -/
theorem exists_first_escape {disk : Disk Id} {config : Config} (paths : List Path)
    (broken : ¬ ∀ path ∈ paths, Contained disk config path) :
    ∃ before path after fault, paths = before ++ path :: after ∧
      (∀ earlier ∈ before, Contained disk config earlier) ∧
        Escapes disk config path fault := by
  induction paths with
  | nil => exact absurd (fun path member => absurd member List.not_mem_nil) broken
  | cons first rest inductionHypothesis =>
    by_cases contained : Contained disk config first
    · have later : ¬ ∀ path ∈ rest, Contained disk config path :=
        fun all => broken (List.forall_mem_cons.mpr ⟨contained, all⟩)
      obtain ⟨before, path, after, fault, same, earlier, escapes⟩ := inductionHypothesis later
      refine ⟨first :: before, path, after, fault, ?_, ?_, escapes⟩
      · rw [same, List.cons_append]
      · exact List.forall_mem_cons.mpr ⟨contained, earlier⟩
    · obtain ⟨fault, escapes⟩ : ∃ fault, Escapes disk config first fault := by
        simpa [Contained] using contained
      refine ⟨[], first, rest, fault, rfl, ?_, escapes⟩
      intro earlier member
      exact absurd member List.not_mem_nil

namespace CommandLine

section

variable (parser : Parser) (disk : Disk Id) {config : Config} {checks : List Check}

/-- A run over contained paths accounts for every file. -/
theorem accounts_of_contained (known : Check.resolve (some config.checks) = .ok checks)
    (paths : List Path) (contained : ∀ path ∈ paths, Contained disk config path) :
    Accounts parser disk config (paths.flatMap (Discovery.filesOf disk config))
      (report parser disk config paths) := by
  rw [report_eq_sequence, Contained.flatMap_steps parser contained]
  apply Accounts.sequence parser checks known
  intro file found
  obtain ⟨path, member, found⟩ := List.mem_flatMap.mp found
  exact (contained path member).named file found

/-- A run ends at the first path that lets a fault escape. It tells of the files that were handled
until then, and of nothing else. -/
theorem report_of_escapes (known : Check.resolve (some config.checks) = .ok checks)
    (before : List Path) (path : Path) (after : List Path) (fault : Fault)
    (contained : ∀ earlier ∈ before, Contained disk config earlier)
    (escapes : Escapes disk config path fault) :
    let handled := before.flatMap (Discovery.filesOf disk config) ++ handledFiles disk config path
    let whole := report parser disk config (before ++ path :: after)
    whole.aborted = some fault ∧ whole.lines = handled.flatMap (linesOf parser disk config) ∧
      whole.errorLines = handled.filterMap (failureOf disk) := by
  intro handled whole
  obtain ⟨last, rest, stepped, ended, silent, quiet⟩ := escapes.steps_eq parser
  have named : ∀ file ∈ handled, Id.run (disk.read file) ≠ .error .nullCharacter := by
    intro file member
    rcases List.mem_append.mp member with earlier | here
    · obtain ⟨other, member, found⟩ := List.mem_flatMap.mp earlier
      exact (contained other member).named file found
    · exact named_of_mem_handledFiles disk config path file here
  have accounts := Accounts.sequence parser checks known handled named
  have finished : ∀ step ∈ handled.map (fileReport parser disk config),
      step.aborted = none := by
    intro step member
    obtain ⟨file, found, same⟩ := List.mem_map.mp member
    rw [← same]
    exact (Accounts.fileReport parser checks known file (named file found)).finished
  have cut :
      whole = (Report.sequence (handled.map (fileReport parser disk config))).append last := by
    have steps : (before ++ path :: after).flatMap (CommandLine.steps parser disk config) =
        handled.map (fileReport parser disk config) ++
          last :: (rest ++ after.flatMap (CommandLine.steps parser disk config)) := by
      rw [List.flatMap_append, List.flatMap_cons, Contained.flatMap_steps parser contained, stepped,
        List.map_append]
      simp only [List.append_assoc, List.cons_append]
    change report parser disk config (before ++ path :: after) = _
    rw [report_eq_sequence, steps]
    exact Report.sequence_of_aborted _ last _ finished (by rw [ended]; rfl)
  refine ⟨?_, ?_, ?_⟩
  · rw [cut, Report.append, accounts.finished, ended]
    rfl
  · rw [cut, Report.append, silent, List.append_nil, accounts.lines_eq]
  · rw [cut, Report.errorLines_append, quiet, List.append_nil, accounts.errorLines_eq]

end

/-- What a run makes of failures: which of them it survives, and what is lost at the others. -/
structure HandlesFailures (parser : Parser) (disk : Disk Id) (arguments : Arguments) : Prop where
  /-- The run ends with a status if and only if nothing escapes from any path. -/
  exits_iff :
    (∃ status, (session parser disk arguments).ending = .exit status) ↔
      ∀ path ∈ arguments.paths, Contained disk (Config.ofArguments arguments) path
  /-- If so, every file is accounted for, and the status is 2 as soon as one could not be read. -/
  survives :
    (∀ path ∈ arguments.paths, Contained disk (Config.ofArguments arguments) path) →
      let files := arguments.paths.flatMap (Discovery.filesOf disk (Config.ofArguments arguments))
      ∃ report,
        session parser disk arguments = concluded arguments report ∧
        Accounts parser disk (Config.ofArguments arguments) files report ∧
        ((∃ file ∈ files, (failureOf disk file).isSome) →
          (session parser disk arguments).ending = .exit 2)
  /-- If not, the first fault that escapes ends the run: only what was handled before is told. -/
  breaks (before : List Path) (path : Path) (after : List Path) (fault : Fault) :
    arguments.paths = before ++ path :: after →
    (∀ earlier ∈ before, Contained disk (Config.ofArguments arguments) earlier) →
    Escapes disk (Config.ofArguments arguments) path fault →
      let handled := before.flatMap (Discovery.filesOf disk (Config.ofArguments arguments)) ++
        handledFiles disk (Config.ofArguments arguments) path
      ∃ report,
        session parser disk arguments = concluded arguments report ∧
        report.aborted = some fault ∧
        report.lines = handled.flatMap (linesOf parser disk (Config.ofArguments arguments)) ∧
        report.errorLines = handled.filterMap (failureOf disk)

/-- A run with known checks tells of every file that the system refuses to read and goes on. It does
not survive a path that the system refuses to look up, nor a file whose path holds a NUL
character. -/
theorem handles_failures (parser : Parser) (disk : Disk Id) (arguments : Arguments)
    (running : arguments.listChecks = false) (given : arguments.paths ≠ [])
    (registered : ∀ name ∈ (Config.ofArguments arguments).checks,
      name ∈ Check.registeredNames) :
    HandlesFailures parser disk arguments := by
  obtain ⟨checks, known⟩ := Check.resolve_of_registered _ registered
  have concludes := session_eq parser disk arguments running given checks known
  have survives (contained : ∀ path ∈ arguments.paths,
      Contained disk (Config.ofArguments arguments) path) :=
    accounts_of_contained parser disk known arguments.paths contained
  have breaks := report_of_escapes parser disk known
  refine ⟨⟨?exits, ?exit_of_contained⟩, ?survives, ?breaks⟩
  case exits =>
    rintro ⟨status, exits⟩
    by_contra broken
    obtain ⟨before, path, after, fault, split, contained, escapes⟩ :=
      exists_first_escape _ broken
    have ended := (breaks before path after fault contained escapes).1
    rw [concludes, ending_concluded, split, ended] at exits
    exact Ending.noConfusion exits
  case exit_of_contained =>
    intro contained
    refine ⟨(report parser disk (Config.ofArguments arguments) arguments.paths).status, ?_⟩
    rw [concludes, ending_concluded, (survives contained).finished]
  case survives =>
    intro contained files
    refine ⟨_, concludes, survives contained, ?_⟩
    intro unreadable
    have told := (survives contained).errorLines_ne_nil_iff.mpr unreadable
    rw [concludes, ending_concluded, (survives contained).finished]
    simp only [(survives contained).status_eq, if_pos told]
  case breaks =>
    intro before path after fault split contained escapes handled
    have broken := breaks before path after fault contained escapes
    rw [← split] at broken
    exact ⟨_, concludes, broken⟩

/-! ## A disk with one source file -/

/-- The bytes of a class with a method that is followed by a semicolon. -/
def dirtySource : Bytes :=
  [99, 108, 97, 115, 115, 32, 68, 105, 114, 116, 121, 32, 123, 10, 32, 32, 32, 32, 118,
    111, 105, 100, 32, 109, 40, 41, 32, 123, 125, 59, 10, 125, 10]

/-- The tree of the class. -/
def dirtyTree : ConcreteTree :=
  let rule (type : String) (row column startByte stopByte : Nat) :
      List ConcreteTree → ConcreteTree :=
    .node ⟨type, ⟨row, column⟩, startByte, stopByte, false⟩
  let token (type : String) (row column startByte : Nat) : ConcreteTree :=
    rule type row column startByte (startByte + type.utf8ByteSize) []
  let method : ConcreteTree :=
    rule "method_declaration" 1 4 18 29
      [rule "void_type" 1 4 18 22 [], rule "identifier" 1 9 23 24 [],
        rule "formal_parameters" 1 10 24 26 [token "(" 1 10 24, token ")" 1 11 25],
        rule "block" 1 13 27 29 [token "\x7b" 1 13 27, token "\x7d" 1 14 28]]
  rule "program" 0 0 0 33
    [rule "class_declaration" 0 0 0 32
      [token "class" 0 0 0, rule "identifier" 0 6 6 11 [],
        rule "class_body" 0 12 12 32
          [token "\x7b" 0 12 12, method, token ";" 1 15 29, token "\x7d" 2 0 31]]]

/-- A parser that gives the tree of the class, whatever it is asked about. -/
def dirtyParser : Parser :=
  ⟨fun _ => dirtyTree, fun _ => false⟩

/-- A disk with nothing but the class in its working directory. -/
def dirtyDisk : MemoryDisk where
  nodes := [(["work"], .directory), (["work", "Dirty.java"], .file dirtySource)]
  working := ["work"]

/-- The path of the class. -/
def dirtyPath : Path :=
  ⟨.working, ["Dirty.java"]⟩

/-- A path at which nothing stands. -/
def gonePath : Path :=
  ⟨.working, ["Gone.java"]⟩

/-- A path with a name of one byte more than a name may have. -/
def overlongPath : Path :=
  ⟨.working, [String.ofList (List.replicate 256 'a')]⟩

theorem locate_dirtyPath : dirtyDisk.locate dirtyPath = .ok ["work", "Dirty.java"] := by
  rw [dirtyPath, MemoryDisk.locate_name _ _ (by decide) (by decide),
    MemoryDisk.follow_entry dirtyDisk _ _ _ (.file dirtySource) rfl (by decide)
      (by decide) rfl nofun]
  rfl

theorem locate_gonePath : dirtyDisk.locate gonePath = .error (.system .notFound) := by
  rw [gonePath, MemoryDisk.locate_name _ _ (by decide) (by decide),
    MemoryDisk.follow_missing dirtyDisk _ _ _ rfl (by decide) (by decide) rfl]
  rfl

theorem locate_overlongPath : dirtyDisk.locate overlongPath = .error (.system .nameTooLong) := by
  have size : (String.ofList (List.replicate 256 'a')).utf8ByteSize = 256 := by decide +kernel
  have plain : String.ofList (List.replicate 256 'a') ≠ ".." := by
    intro same
    rw [same] at size
    exact absurd size (by decide)
  have clean : Char.ofNat 0 ∉ (String.ofList (List.replicate 256 'a')).toList := by
    rw [String.toList_ofList]
    intro member
    exact absurd (List.eq_of_mem_replicate member) (by decide)
  rw [overlongPath, MemoryDisk.locate_name _ _ clean (by rw [size]; decide),
    MemoryDisk.follow_overlong dirtyDisk _ _ _ _ rfl plain (by rw [size]; decide)]
  rfl

theorem read_dirtyPath : Id.run (dirtyDisk.toDisk.read dirtyPath) = .ok dirtySource := by
  change dirtyDisk.read dirtyPath = _
  rw [MemoryDisk.read, locate_dirtyPath]
  rfl

/-- The class has one issue, at the semicolon after its method. -/
theorem linesOf_dirtyPath :
    linesOf dirtyParser dirtyDisk.toDisk {} dirtyPath =
      ["Dirty.java:2:16: Unnecessary semicolon. [unnecessary.semicolon]"] := by
  have found : issuesOf dirtyParser {} dirtySource =
      [⟨"unnecessary.semicolon", 2, 16, "Unnecessary semicolon."⟩] := by decide +kernel
  rw [linesOf, read_dirtyPath]
  simp only [found]
  rfl

/-- The answers about the two paths at which a file can stand. -/
theorem isDirectory_dirtyPath : Id.run (dirtyDisk.toDisk.isDirectory dirtyPath) = .ok false := by
  have answer : Id.run (dirtyDisk.toDisk.leadsToDirectory dirtyPath) = .ok false := by
    change dirtyDisk.leadsToDirectory dirtyPath = _
    rw [MemoryDisk.leadsToDirectory, locate_dirtyPath]
    rfl
  rw [Disk.run_isDirectory, answer]

theorem isDirectory_gonePath : Id.run (dirtyDisk.toDisk.isDirectory gonePath) = .ok false := by
  have answer :
      Id.run (dirtyDisk.toDisk.leadsToDirectory gonePath) = .error (.system .notFound) := by
    change dirtyDisk.leadsToDirectory gonePath = _
    rw [MemoryDisk.leadsToDirectory, locate_gonePath]
    rfl
  rw [Disk.run_isDirectory, answer]
  rfl

theorem read_gonePath : Id.run (dirtyDisk.toDisk.read gonePath) = .error (.system .notFound) := by
  change dirtyDisk.read gonePath = _
  rw [MemoryDisk.read, locate_gonePath]
  rfl

theorem contained_of_mem_dirty :
    ∀ path ∈ [gonePath, dirtyPath], Contained dirtyDisk.toDisk {} path := by
  intro path member
  rcases List.mem_pair.mp member with rfl | rfl
  · exact contained_of_not_directory _ _ _ isDirectory_gonePath (by rw [read_gonePath]; decide)
  · exact contained_of_not_directory _ _ _ isDirectory_dirtyPath
      (by rw [read_dirtyPath]; nofun)

/-- A missing file is told of, the class after it is linted all the same, and the status is 2. -/
theorem handles_missing_file :
    ({ paths := [gonePath, dirtyPath] } : Arguments).listChecks = false ∧
      ({ paths := [gonePath, dirtyPath] } : Arguments).paths ≠ [] ∧
      (∀ name ∈ (Config.ofArguments { paths := [gonePath, dirtyPath] }).checks,
        name ∈ Check.registeredNames) ∧
      (session dirtyParser dirtyDisk.toDisk { paths := [gonePath, dirtyPath] }).output =
        "Dirty.java:2:16: Unnecessary semicolon. [unnecessary.semicolon]\n" ∧
      (session dirtyParser dirtyDisk.toDisk { paths := [gonePath, dirtyPath] }).ending =
        .exit 2 := by
  have registered : ∀ name ∈ (Config.ofArguments { paths := [gonePath, dirtyPath] }).checks,
      name ∈ Check.registeredNames := fun name member => member
  have handles :=
    handles_failures dirtyParser dirtyDisk.toDisk { paths := [gonePath, dirtyPath] } rfl
      (List.cons_ne_nil _ _) registered
  obtain ⟨report, concludes, accounts, failing⟩ := handles.survives contained_of_mem_dirty
  have standard : Config.ofArguments { paths := [gonePath, dirtyPath] } = {} := rfl
  have files : ({ paths := [gonePath, dirtyPath] } : Arguments).paths.flatMap
      (Discovery.filesOf dirtyDisk.toDisk {}) = [gonePath, dirtyPath] := by
    simp only [List.flatMap_cons, List.flatMap_nil,
      Discovery.filesOf_of_not_directory _ _ _ isDirectory_gonePath,
      Discovery.filesOf_of_not_directory _ _ _ isDirectory_dirtyPath]
    rfl
  refine ⟨rfl, List.cons_ne_nil _ _, registered, ?_, ?_⟩
  · have lines : report.lines = linesOf dirtyParser dirtyDisk.toDisk {} dirtyPath := by
      have nothing : linesOf dirtyParser dirtyDisk.toDisk {} gonePath = [] := by
        rw [linesOf, read_gonePath]
      rw [accounts.lines_eq, standard, files, List.flatMap_cons, List.flatMap_cons, nothing,
        List.flatMap_nil, List.append_nil, List.nil_append]
    rw [concludes, output_concluded, lines, linesOf_dirtyPath]
    rfl
  · refine failing ⟨gonePath, ?_, ?_⟩
    · rw [standard, files]
      exact List.mem_cons_self
    · exact (failureOf_isSome_iff _ _).mpr ⟨_, read_gonePath⟩

/-- A name that is too long ends the run: the class after it is not linted, although a run on the
class alone prints its issue. -/
theorem overlong_name_ends_run :
    (session dirtyParser dirtyDisk.toDisk { paths := [overlongPath, dirtyPath] }).ending =
        .fault (.system (SystemError.nameTooLong.about overlongPath.text)) ∧
      (session dirtyParser dirtyDisk.toDisk { paths := [overlongPath, dirtyPath] }).output = "" ∧
      (session dirtyParser dirtyDisk.toDisk { paths := [dirtyPath] }).output =
        "Dirty.java:2:16: Unnecessary semicolon. [unnecessary.semicolon]\n" := by
  obtain ⟨checks, known⟩ :=
    Check.resolve_of_registered Check.registeredNames fun name member => member
  have refused : Id.run (dirtyDisk.toDisk.leadsToDirectory overlongPath) =
      .error (.system .nameTooLong) := by
    change dirtyDisk.leadsToDirectory overlongPath = _
    rw [MemoryDisk.leadsToDirectory, locate_overlongPath]
    rfl
  have escapes : Escapes dirtyDisk.toDisk {} overlongPath _ :=
    .lookup SystemError.nameTooLong refused rfl
  obtain ⟨ended, silent, _⟩ :=
    report_of_escapes dirtyParser dirtyDisk.toDisk known [] overlongPath [dirtyPath] _
      (fun _ member => nomatch member) escapes
  have alone : Accounts dirtyParser dirtyDisk.toDisk {} _
      (report dirtyParser dirtyDisk.toDisk {} [dirtyPath]) :=
    accounts_of_contained dirtyParser dirtyDisk.toDisk known [dirtyPath]
      fun path member => contained_of_mem_dirty path (List.mem_cons_of_mem _ member)
  have both : session dirtyParser dirtyDisk.toDisk { paths := [overlongPath, dirtyPath] } =
      concluded _ (report dirtyParser dirtyDisk.toDisk {} ([] ++ overlongPath :: [dirtyPath])) :=
    session_eq _ _ _ rfl (List.cons_ne_nil _ _) checks known
  have single : session dirtyParser dirtyDisk.toDisk { paths := [dirtyPath] } =
      concluded _ (report dirtyParser dirtyDisk.toDisk {} [dirtyPath]) :=
    session_eq _ _ _ rfl (List.cons_ne_nil _ _) checks known
  refine ⟨?_, ?_, ?_⟩
  · rw [both, ending_concluded, ended]
  · have failed := (isDirectory_eq_error_iff dirtyDisk.toDisk overlongPath _).mpr
      ⟨_, refused, rfl, rfl⟩
    rw [both, output_concluded, silent, handledFiles_of_failed _ _ _ _ failed]
    rfl
  · rw [single, output_concluded, alone.lines_eq, List.flatMap_cons,
      Discovery.filesOf_of_not_directory _ _ _ isDirectory_dirtyPath, List.flatMap_nil,
      List.append_nil, List.flatMap_cons, linesOf_dirtyPath, List.flatMap_nil]
    rfl

end CommandLine

end StraySemicolon

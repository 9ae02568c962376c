import StraySemicolon.Arguments
import StraySemicolon.Discovery
import StraySemicolon.FileLint

/-!
# The command line

A run over files lints every source file that the paths stand for, prints one line for each issue,
and ends with the numbers of files and violations. A file that cannot be read is told of and
counted, and the run goes on. Notes go to the error output if they matter enough for the chosen
verbosity.

`lintPaths` gathers the findings of the paths, and `Session` is what is written in the end.
-/

namespace StraySemicolon

/-- What a run over files has found so far. -/
structure Report where
  /-- The printed lines. -/
  lines : List String := []
  notes : List Note := []
  /-- How many files were checked, unreadable ones included. -/
  files : Nat := 0
  violations : Nat := 0
  /-- Whether some file could not be linted. -/
  failed : Bool := false
  /-- The fault that ended the run early. -/
  aborted : Option Fault := none
deriving DecidableEq, Inhabited, Repr

namespace Report

/-- Two reports in a row. -/
def append (first second : Report) : Report where
  lines := first.lines ++ second.lines
  notes := first.notes ++ second.notes
  files := first.files + second.files
  violations := first.violations + second.violations
  failed := first.failed || second.failed
  aborted := first.aborted <|> second.aborted

/-- The report on one file. -/
def ofFile (path : Path) (run : FileRun) : Report :=
  match run.outcome with
  | .issues found =>
    { lines := found.map fun issue => issue.format path.text
      notes := run.notes
      files := 1
      violations := found.length }
  | .failed error => { notes := run.notes ++ [.failure error], files := 1, failed := true }
  | .aborted fault => { notes := run.notes, files := 1, aborted := some fault }

/-- The exit status that a finished report asks for. -/
def status (report : Report) : Nat :=
  if report.failed then 2
  else if report.violations = 0 then 0
  else 1

end Report

namespace CommandLine

variable {m : Type → Type} [Monad m]

/-- A report and what comes after it, unless the report was ended early. -/
def andThen (first : Report) (next : m Report) : m Report :=
  if first.aborted.isSome then pure first
  else do
    let second ← next
    return first.append second

/-- The report on source files. -/
def lintFiles (parser : Parser) (disk : Disk m) (config : Config) : List Path → m Report
  | [] => return {}
  | path :: rest => do
    let run ← lintFile parser disk path (some config.checks)
    andThen (.ofFile path run) (lintFiles parser disk config rest)

/-- The report on the source files that paths stand for. -/
def lintPaths (parser : Parser) (disk : Disk m) (config : Config) : List Path → m Report
  | [] => return {}
  | path :: rest => do
    match ← Discovery.expand disk config path with
    | .error fault => return { aborted := some fault }
    | .ok files =>
      let first ← lintFiles parser disk config files
      andThen first (lintPaths parser disk config rest)

/-- How a run of the program ends. -/
inductive Ending where
  | exit (status : Nat)
  /-- A fault that the program does not handle. -/
  | fault (fault : Fault)
deriving DecidableEq, Repr

/-- What a run of the program leaves behind. -/
structure Session where
  /-- The text on the standard output. -/
  output : String
  /-- The text on the error output. -/
  errors : String
  ending : Ending
deriving DecidableEq, Repr

/-- Lines as a text. -/
def unlines (lines : List String) : String :=
  String.join (lines.map fun line => line ++ "\n")

/-- The least level that is shown. The verbose option wins over the quiet one. -/
def verbosity (arguments : Arguments) : Level :=
  if arguments.verbose then .debug
  else if arguments.quiet then .warning
  else .info

/-- The notes that are shown, as a text. -/
def shown (arguments : Arguments) (notes : List Note) : String :=
  unlines ((notes.filter fun note => (verbosity arguments).rank ≤ note.level.rank).map
    Note.message)

/-- The name of the program. -/
def programName : String :=
  "semilint"

/-- The line that tells the version. -/
def versionLine : String :=
  programName ++ " 1.0"

/-- How the program is called. -/
def usage : List String :=
  ["usage: semilint [-h] [--check NAME] [--list-checks] [--suffix EXT]",
    "                [--follow-symlinks] [--quiet] [--verbose] [--version]",
    "                [PATH ...]"]

/-- The help text. -/
def help : List String :=
  usage ++
  ["",
    "Report unnecessary semicolons after Java type member declarations",
    "",
    "positional arguments:",
    "  PATH               Java source files or directories to scan",
    "",
    "options:",
    "  -h, --help         show this help message and exit",
    "  --check NAME       Run only the named check (repeatable)",
    "  --list-checks      List the available checks and exit",
    "  --suffix EXT       File suffix to scan in directories (default: .java)",
    "  --follow-symlinks  Follow symbolic links while walking directories",
    "  --quiet, -q        Only print violations and errors",
    "  --verbose, -v      Show debug output",
    "  --version          show program's version number and exit",
    "",
    "Examples:",
    "  # Single file",
    "  python -m semilint src/main/java/com/example/Foo.java",
    "",
    "  # Whole source tree",
    "  python -m semilint src/main/java",
    "        "]

/-- The session of a command line that leads to no run. -/
def stopped : Stop → Session
  | .help => ⟨unlines help, "", .exit 0⟩
  | .version => ⟨unlines [versionLine], "", .exit 0⟩
  | .usage error =>
    ⟨"", unlines (usage ++ [s!"{programName}: error: {error.message}"]), .exit 2⟩

/-- The session of a report. The numbers are told unless the run was ended early. -/
def concluded (arguments : Arguments) (report : Report) : Session :=
  match report.aborted with
  | some fault => ⟨unlines report.lines, shown arguments report.notes, .fault fault⟩
  | none =>
    let notes := report.notes ++ [.summary report.files report.violations]
    ⟨unlines report.lines, shown arguments notes, .exit report.status⟩

/-- The session of arguments. -/
def runArguments (parser : Parser) (disk : Disk m) (arguments : Arguments) : m Session := do
  if arguments.listChecks then return ⟨unlines Check.registeredNames, "", .exit 0⟩
  else if arguments.paths.isEmpty then return ⟨unlines help, "", .exit 2⟩
  else
    let config := Config.ofArguments arguments
    match Check.resolve (some config.checks) with
    | .error unknown =>
      return ⟨"", shown arguments [.failure (.unknownCheck unknown)], .exit 2⟩
    | .ok _ =>
      let report ← lintPaths parser disk config arguments.paths
      return concluded arguments report

/-- Runs the program on the words of a command line. -/
def run (parser : Parser) (disk : Disk m) (words : List String) : m Session :=
  match Arguments.ofWords words with
  | .error stop => pure (stopped stop)
  | .ok arguments => runArguments parser disk arguments

end CommandLine

end StraySemicolon

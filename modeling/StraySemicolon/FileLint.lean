import StraySemicolon.Disk
import StraySemicolon.Lint

/-!
# Linting a file

A file is read, and its text is parsed and linted. What happens on the way is noted: the file that
is read, the trace of the lint run, and a failure if there is one.
-/

namespace StraySemicolon

/-- A failure that the user is told about. -/
inductive LintError where
  | unknownCheck (error : UnknownCheck)
  | unreadable (path : String) (error : SystemError)
deriving DecidableEq, Repr

/-- What the user is told. -/
def LintError.message : LintError → String
  | unknownCheck error => error.message
  | unreadable path error => s!"Cannot read {path}: {error.explanation}"

/-- How much a note matters. -/
inductive Level where
  | debug
  | info
  | warning
  | error
deriving DecidableEq, Repr

/-- The rank of a level. -/
def Level.rank : Level → Nat
  | debug => 0
  | info => 1
  | warning => 2
  | error => 3

/-- Something that is noted in a run over files. -/
inductive Note where
  /-- A file is about to be read. -/
  | reading (path : Path)
  /-- Something happened in a lint run. -/
  | event (event : TraceEvent)
  | failure (error : LintError)
  /-- The numbers of files and of violations of a whole run. -/
  | summary (files violations : Nat)
deriving DecidableEq, Repr

namespace Note

/-- How much a note matters. -/
def level : Note → Level
  | reading _ => .debug
  | event (.parseError ..) => .warning
  | event _ => .debug
  | failure _ => .error
  | summary .. => .info

/-- The line of a note. -/
def message : Note → String
  | reading path => s!"parse sourcefile {path.text}"
  | event traced => traced.message
  | failure error => error.message
  | summary files violations => s!"{files} file(s) checked, {violations} violation(s)"

end Note

/-- How linting a file ends. -/
inductive FileOutcome where
  | issues (found : List Issue)
  | failed (error : LintError)
  /-- A fault that is no failure of the file. -/
  | aborted (fault : Fault)
deriving DecidableEq, Repr

/-- What linting a file leaves behind. -/
structure FileRun where
  notes : List Note
  outcome : FileOutcome
deriving DecidableEq, Repr

/-- Reads a file, parses its text and lints it. -/
def lintFile {m : Type → Type} [Monad m] (parser : Parser) (disk : Disk m) (path : Path)
    (names : Option (List String)) : m FileRun := do
  match ← disk.read path with
  | .error .nullCharacter => return ⟨[.reading path], .aborted .nullCharacter⟩
  | .error (.system error) => return ⟨[.reading path], .failed (.unreadable path.text error)⟩
  | .ok source =>
    let run := lint (parser.parse source) names
    let notes := .reading path :: run.trace.map Note.event
    match run.outcome with
    | .error unknown => return ⟨notes, .failed (.unknownCheck unknown)⟩
    | .ok found => return ⟨notes, .issues found⟩

end StraySemicolon

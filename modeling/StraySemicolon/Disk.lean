import StraySemicolon.Path
import StraySemicolon.Text.Quoted
import StraySemicolon.Text.Utf8

/-!
# Disks

What the program asks of a file system: whether a path leads to a directory, which entries a
directory has, and what a file holds. Every question can fail, with an error of the system or
because no path can hold a NUL character. The answers come in a monad, so that the same program runs
on real files and on a snapshot about which theorems can be stated.
-/

namespace StraySemicolon

/-- An error of the file system. -/
inductive SystemError where
  /-- An error that says nothing. -/
  | silent
  /-- An error that is only a text. -/
  | plain (text : String)
  /-- An error with its number and text, and with the file it is about if that is known. -/
  | numbered (number : Int) (text : String) (file : Option String)
deriving DecidableEq, Inhabited, Repr

namespace SystemError

/-- Nothing is there. -/
def notFound : SystemError :=
  .numbered 2 "No such file or directory" none

/-- The file or directory may not be looked at. -/
def permissionDenied : SystemError :=
  .numbered 13 "Permission denied" none

/-- A file stands where a directory is needed. -/
def notADirectory : SystemError :=
  .numbered 20 "Not a directory" none

/-- A directory stands where a file is needed. -/
def isADirectory : SystemError :=
  .numbered 21 "Is a directory" none

/-- A component or the whole path is too long. -/
def nameTooLong : SystemError :=
  .numbered 36 "File name too long" none

/-- Too many links on the way. -/
def tooManyLinks : SystemError :=
  .numbered 40 "Too many levels of symbolic links" none

/-- The error of a number, with the given text unless the number has one of its own here. -/
def ofNumber (number : Int) (text : String) : SystemError :=
  let known := [notFound, permissionDenied, notADirectory, isADirectory, nameTooLong, tooManyLinks]
  let same : SystemError → Bool
    | numbered other _ _ => other == number
    | _ => false
  (known.find? same).getD (.numbered number text none)

/-- The whole error as one text. -/
def describe : SystemError → String
  | silent => ""
  | plain text => text
  | numbered number text none => s!"[Errno {number}] {text}"
  | numbered number text (some file) => s!"[Errno {number}] {text}: {file.quoted}"

/-- The text that explains an error: the system's text if it has one, and the whole error if not. -/
def explanation (error : SystemError) : String :=
  match error with
  | numbered _ text _ => if text = "" then error.describe else text
  | _ => error.describe

/-- The error with the file it is about. -/
def about (file : String) : SystemError → SystemError
  | numbered number text _ => numbered number text (some file)
  | error => error

/-- Whether an error only says that no directory is there: nothing is, a file is, or the links lead
nowhere. -/
def isAbsence : SystemError → Bool
  | numbered number _ _ => [2, 9, 20, 40].contains number
  | _ => false

end SystemError

/-- Why a question to a disk has no answer. -/
inductive Fault where
  | system (error : SystemError)
  /-- The path holds a NUL character. -/
  | nullCharacter
deriving DecidableEq, Inhabited, Repr

namespace Fault

/-- The text of a fault. -/
def message : Fault → String
  | system error => error.describe
  | nullCharacter => "embedded null byte"

end Fault

/-- What an entry of a directory is, links not followed. -/
inductive EntryKind where
  | directory
  | link
  | other
deriving DecidableEq, Inhabited, Repr

/-- An entry of a directory. -/
structure Entry where
  name : String
  kind : EntryKind
deriving DecidableEq, Inhabited, Repr

/-- The questions that can be asked of a file system. -/
structure Disk (m : Type → Type) where
  /-- Whether a path leads to a directory, links followed. -/
  leadsToDirectory : Path → m (Except Fault Bool)
  /-- The entries of a directory, in any order. -/
  entries : Path → m (Except Fault (List Entry))
  /-- The bytes of a file. -/
  read : Path → m (Except Fault Bytes)
  /-- How many directories can stand inside each other. This is a limit of the system; the recursion
  limit of `os.walk` of version 3.11 is left out. -/
  depth : Nat

namespace Disk

variable {m : Type → Type} [Monad m]

/-- Whether a path given by the user is a directory. A path where nothing can be found is none;
other errors of the system are left to the caller. -/
def isDirectory (disk : Disk m) (path : Path) : m (Except Fault Bool) := do
  match ← disk.leadsToDirectory path with
  | .ok answer => return .ok answer
  | .error .nullCharacter => return .ok false
  | .error (.system error) =>
    if error.isAbsence then return .ok false
    else return .error (.system (error.about path.text))

/-- Whether an entry of a directory is a directory or a link to one. Links that cannot be followed
are not. -/
def entryIsDirectory (disk : Disk m) (entry : Entry) (path : Path) : m Bool :=
  match entry.kind with
  | .directory => pure true
  | .other => pure false
  | .link => do
    match ← disk.leadsToDirectory path with
    | .ok answer => return answer
    | .error _ => return false

end Disk

end StraySemicolon

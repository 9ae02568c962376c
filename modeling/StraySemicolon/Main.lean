import StraySemicolon.CommandLine
import StraySemicolon.Source.Reader

/-!
# The program

Runs the command line with the reader of Java source on the files of the system. Nothing is decided
here: the look-ups are passed on, the errors of the system are named, and the session is written
out.
-/

namespace StraySemicolon

/-- The error of the system behind a failed operation. Some operations give the number of the error
with its sign changed. -/
def SystemError.ofOperation : IO.Error → SystemError
  | .alreadyExists _ code text | .otherError code text | .resourceBusy code text
  | .resourceVanished code text | .unsupportedOperation code text | .hardwareFault code text
  | .unsatisfiedConstraints code text | .illegalOperation code text | .protocolError code text
  | .timeExpired code text | .interrupted _ code text | .noFileOrDirectory _ code text
  | .invalidArgument _ code text | .permissionDenied _ code text
  | .resourceExhausted _ code text | .inappropriateType _ code text
  | .noSuchThing _ code text => .ofNumber code.toInt32.toInt.natAbs text
  | .unexpectedEof => .plain "unexpected end of file"
  | .userError text => .plain text

/-- Asks the system about a path, unless the path holds a NUL character. -/
def ask {α : Type} (path : Path) (question : String → IO α) : IO (Except Fault α) := do
  if path.text.toList.contains (Char.ofNat 0) then return .error .nullCharacter
  else
    try return .ok (← question path.text)
    catch error => return .error (.system (.ofOperation error))

/-- The files of the system. No path of the system has more bytes than the depth given here. -/
def systemDisk : Disk IO where
  leadsToDirectory path := ask path fun text => do
    let found ← ((← IO.currentDir) / text).metadata
    return found.type == .dir
  entries path := ask path fun text => do
    let listed ← ((← IO.currentDir) / text).readDir
    listed.toList.mapM fun entry => do
      let found ← (entry.root / entry.fileName).symlinkMetadata
      let kind := match found.type with
        | .dir => EntryKind.directory
        | .symlink => .link
        | _ => .other
      return ⟨entry.fileName, kind⟩
  read path := ask path fun text => do
    let content ← IO.FS.readBinFile ((← IO.currentDir) / text)
    return content.toList
  depth := 4096

end StraySemicolon

/-- Runs the program. A fault that it does not handle is told and ends it with status 1. -/
def main (words : List String) : IO UInt32 := do
  let session ← StraySemicolon.CommandLine.run StraySemicolon.Source.parser
    StraySemicolon.systemDisk words
  IO.print session.output
  IO.eprint session.errors
  match session.ending with
  | .exit status => return status.toUInt32
  | .fault fault =>
    IO.eprintln fault.message
    return 1

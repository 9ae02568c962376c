import StraySemicolon.Config
import StraySemicolon.Disk

/-!
# Discovery of source files

A path that is no directory stands for itself. A directory stands for the files below it whose names
have one of the configured endings, ordered by their components. Directories that cannot be listed
have nothing below them, and links to directories are entered only if the configuration says so.
-/

namespace StraySemicolon.Discovery

variable {m : Type → Type} [Monad m]

/-- The source files below a directory, in the order of the listings. The search goes no deeper than
the given depth. The recursion limit that `os.walk` of version 3.11 runs into in a very deep
directory is left out. -/
def below (disk : Disk m) (config : Config) : Nat → Path → m (List Path)
  | 0, _ => pure []
  | depth + 1, directory => do
    match ← disk.entries directory with
    | .error _ => return []
    | .ok entries =>
      let found ← entries.mapM fun entry => do
        let path := directory.child entry.name
        if ← disk.entryIsDirectory entry path then
          if entry.kind = .link && !config.followSymlinks then return []
          else below disk config depth path
        else return if config.selects entry.name then [path] else []
      return found.flatten

/-- The source files that a path stands for. -/
def expand (disk : Disk m) (config : Config) (path : Path) : m (Except Fault (List Path)) := do
  match ← disk.isDirectory path with
  | .error fault => return .error fault
  | .ok false => return .ok [path]
  | .ok true =>
    let found ← below disk config disk.depth path
    return .ok (found.mergeSort Path.notAfter)

/-- The source files that paths stand for, one path after the other. -/
def expandAll (disk : Disk m) (config : Config) : List Path → m (Except Fault (List Path))
  | [] => return .ok []
  | path :: rest => do
    match ← expand disk config path with
    | .error fault => return .error fault
    | .ok found =>
      match ← expandAll disk config rest with
      | .error fault => return .error fault
      | .ok others => return .ok (found ++ others)

end StraySemicolon.Discovery

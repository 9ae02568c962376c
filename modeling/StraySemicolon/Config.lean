import StraySemicolon.Check.Registry

/-!
# The configuration of a run
-/

namespace StraySemicolon

/-- What a run over files looks for, and where. -/
structure Config where
  /-- The names of the checks to run. -/
  checks : List String := Check.registeredNames
  /-- The endings of the names of source files. -/
  suffixes : List String := [".java"]
  /-- Whether links to directories are entered. -/
  followSymlinks : Bool := false
deriving DecidableEq, Inhabited, Repr

namespace Config

/-- Whether a file name has one of the endings. -/
def selects (config : Config) (name : String) : Bool :=
  config.suffixes.any fun suffix => suffix.toList.isSuffixOf name.toList

end Config

end StraySemicolon

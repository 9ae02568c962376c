import StraySemicolon.Config
import StraySemicolon.Path
import StraySemicolon.Text.Digit
import StraySemicolon.Text.Quoted

/-!
# Command-line arguments

The words of a command line are options and operands. Every word is classified on its own before any
is acted on: an option may be written by its spelling, by a unique beginning of a long spelling, or
with a value after an equals sign; a word with a single dash may bundle several short options. A
word `--` ends the options. A lone dash, a negative number and an unknown word with a blank are
operands.

The words are then taken in order. The paths are the first group of operands; operands after a later
option belong to no group and are refused, as are unknown options. `--help` and `--version` take
effect as soon as they are met.

Where the releases of `argparse` differ, the words are read as in version 3.11.2. Version 3.11.10
treats bundles in another way: no bundle may follow an equals sign, and letters that are no options
are refused as unknown options, after the options before them have taken effect.
-/

namespace StraySemicolon

/-- The options. -/
inductive Switch where
  | help
  | check
  | listChecks
  | suffix
  | followSymlinks
  | quiet
  | verbose
  | version
deriving DecidableEq, Inhabited, Repr

namespace Switch

/-- The spellings of all options, in the order in which they are offered. -/
def spellings : List (String × Switch) :=
  [("-h", help), ("--help", help), ("--check", check), ("--list-checks", listChecks),
    ("--suffix", suffix), ("--follow-symlinks", followSymlinks), ("--quiet", quiet), ("-q", quiet),
    ("--verbose", verbose), ("-v", verbose), ("--version", version)]

/-- The option of a spelling. -/
def ofSpelling? (word : String) : Option Switch :=
  spellings.lookup word

/-- Whether an option has a value. -/
def takesValue : Switch → Bool
  | check | suffix => true
  | _ => false

/-- All spellings of an option, as errors show them. -/
def display (option : Switch) : String :=
  "/".intercalate ((spellings.filter fun entry => entry.2 = option).map Prod.fst)

end Switch

/-- The arguments of a run. -/
structure Arguments where
  paths : List Path := []
  /-- The names of checks, if any were given. -/
  check : Option (List String) := none
  listChecks : Bool := false
  /-- The endings of source files, if any were given. -/
  suffix : Option (List String) := none
  followSymlinks : Bool := false
  quiet : Bool := false
  verbose : Bool := false
deriving DecidableEq, Inhabited, Repr

/-- What is wrong with a command line. -/
inductive UsageError where
  /-- The beginning of several long options. -/
  | ambiguous (word : String) (candidates : List String)
  | missingValue (option : Switch)
  /-- A value for an option that has none. -/
  | unwantedValue (option : Switch) (value : String)
  | unrecognized (words : List String)
deriving DecidableEq, Repr

/-- What the user is told. -/
def UsageError.message : UsageError → String
  | ambiguous word candidates =>
    let offered := ", ".intercalate candidates
    s!"ambiguous option: {word} could match {offered}"
  | missingValue option => s!"argument {option.display}: expected one argument"
  | unwantedValue option value =>
    s!"argument {option.display}: ignored explicit argument {value.quoted}"
  | unrecognized words =>
    let listed := " ".intercalate words
    s!"unrecognized arguments: {listed}"

/-- Why a command line does not lead to a run. -/
inductive Stop where
  | help
  | version
  | usage (error : UsageError)
deriving DecidableEq, Repr

namespace Arguments

/-! ## Words -/

/-- What a word is. -/
inductive WordClass where
  | operand
  /-- The word that ends the options. -/
  | terminator
  /-- A word that looks like an option and is none. -/
  | unknown
  /-- An option with its full spelling and the value written in the same word. -/
  | option (spelling : String) (option : Switch) (attached : Option String)
deriving DecidableEq, Repr

/-- The word that ends the options. -/
def terminatorWord : String :=
  "--"

/-- The characters before and after the first equals sign. -/
def splitAtEquals : List Char → Option (List Char × List Char)
  | [] => none
  | character :: rest =>
    if character = '=' then some ([], rest)
    else (splitAtEquals rest).map fun (before, after) => (character :: before, after)

/-- Whether characters are one or more decimal digits. -/
def isDigits (characters : List Char) : Bool :=
  !characters.isEmpty && characters.all isDecimalDigit

/-- Whether the characters after a dash make a negative number: digits, or digits around a point of
which those before it may be missing. A line feed at the end does not matter. -/
def isNumber (characters : List Char) : Bool :=
  let text := if characters.getLast? = some '\n' then characters.dropLast else characters
  let whole := text.takeWhile isDecimalDigit
  match text.drop whole.length with
  | [] => !whole.isEmpty
  | '.' :: fraction => isDigits fraction
  | _ => false

/-- The options that a word with a dash may stand for when it is no full spelling: every long option
that begins like it, or the short option that it begins with. -/
def candidates (word : List Char) : List (String × Switch × Option String) :=
  match word with
  | '-' :: '-' :: _ =>
    let (start, attached) := match splitAtEquals word with
      | some (before, after) => (before, some (String.ofList after))
      | none => (word, none)
    (Switch.spellings.filter fun entry => start.isPrefixOf entry.1.toList).map
      fun (spelling, option) => (spelling, option, attached)
  | dash :: letter :: rest =>
    (Switch.spellings.filter fun entry => entry.1.toList = [dash, letter]).map
      fun (spelling, option) => (spelling, option, some (String.ofList rest))
  | _ => []

/-- The option that a word names in full, possibly with a value after an equals sign. -/
def spelled? (word : String) : Option (String × Switch × Option String) :=
  match Switch.ofSpelling? word with
  | some option => some (word, option, none)
  | none => do
    let (before, after) ← splitAtEquals word.toList
    let spelling := String.ofList before
    let option ← Switch.ofSpelling? spelling
    return (spelling, option, some (String.ofList after))

/-- The class of a word before the end of the options. -/
def classify (word : String) : Except UsageError WordClass :=
  match word.toList with
  | '-' :: second :: rest =>
    match spelled? word with
    | some (spelling, option, attached) => .ok (.option spelling option attached)
    | none =>
      match candidates word.toList with
      | [(spelling, option, attached)] => .ok (.option spelling option attached)
      | [] =>
        if isNumber (second :: rest) || word.toList.contains ' ' then .ok .operand
        else .ok .unknown
      | several => .error (.ambiguous word (several.map Prod.fst))
  | _ => .ok .operand

/-- The classes of all words. -/
def classifyAll : List String → Except UsageError (List (String × WordClass))
  | [] => .ok []
  | word :: rest =>
    if word = terminatorWord then
      .ok ((word, .terminator) :: rest.map fun later => (later, .operand))
    else do
      let here ← classify word
      let others ← classifyAll rest
      return (word, here) :: others

/-! ## Acting on words -/

/-- How far the one group of operands has come. -/
inductive GroupState where
  | awaited
  | begun
  | closed
deriving DecidableEq, Repr

/-- What the words so far amount to. -/
structure Progress where
  arguments : Arguments
  group : GroupState
  /-- The words that nothing accepts. -/
  refused : List String
deriving DecidableEq, Repr

namespace Progress

/-- Before the first word. -/
def start : Progress :=
  ⟨{}, .awaited, []⟩

/-- An option ends the group of operands. -/
def interrupt (progress : Progress) : Progress :=
  { progress with group := if progress.group = .awaited then .awaited else .closed }

/-- Takes an operand. -/
def operand (progress : Progress) (word : String) : Progress :=
  if progress.group = .closed then { progress with refused := progress.refused ++ [word] }
  else
    let paths := progress.arguments.paths ++ [Path.ofText word]
    { progress with arguments := { progress.arguments with paths }, group := .begun }

/-- Takes the word that ends the options. It belongs to the group of operands and names no path. -/
def terminator (progress : Progress) : Progress :=
  if progress.group = .closed then
    { progress with refused := progress.refused ++ [terminatorWord] }
  else { progress with group := .begun }

/-- Refuses a word. -/
def refuse (progress : Progress) (word : String) : Progress :=
  { progress.interrupt with refused := progress.refused ++ [word] }

end Progress

/-- The arguments with the value of an option. -/
def withValue (arguments : Arguments) (option : Switch) (value : String) : Arguments :=
  match option with
  | .check => { arguments with check := some (arguments.check.getD [] ++ [value]) }
  | .suffix => { arguments with suffix := some (arguments.suffix.getD [] ++ [value]) }
  | _ => arguments

/-- The arguments with an option that has no value. -/
def withFlag (arguments : Arguments) (option : Switch) : Except Stop Arguments :=
  match option with
  | .help => .error .help
  | .version => .error .version
  | .listChecks => .ok { arguments with listChecks := true }
  | .followSymlinks => .ok { arguments with followSymlinks := true }
  | .quiet => .ok { arguments with quiet := true }
  | .verbose => .ok { arguments with verbose := true }
  | .check | .suffix => .ok arguments

/-- The options bundled in a word: one short option and the letters after it, which are short
options too. A letter that is none begins a value, which the option before it does not take. -/
def bundled (option : Switch) : List Char → Except Stop (List Switch)
  | [] => .ok [option]
  | letter :: rest =>
    match Switch.ofSpelling? (String.ofList ['-', letter]) with
    | some next => do
      let others ← bundled next rest
      return option :: others
    | none => .error (.usage (.unwantedValue option (String.ofList (letter :: rest))))

/-- The options without values that one word stands for. What is attached to a short option is a
bundle, also after an equals sign. -/
def flags (spelling : String) (option : Switch) : Option String → Except Stop (List Switch)
  | none => .ok [option]
  | some attached =>
    if terminatorWord.toList.isPrefixOf spelling.toList || attached = "" then
      .error (.usage (.unwantedValue option attached))
    else bundled option attached.toList

/-- Takes the words in order. -/
def takeWords (progress : Progress) : List (String × WordClass) → Except Stop Progress
  | [] => .ok progress
  | (word, .operand) :: rest => takeWords (progress.operand word) rest
  | (_, .terminator) :: rest => takeWords progress.terminator rest
  | (word, .unknown) :: rest => takeWords (progress.refuse word) rest
  | (_, .option spelling option attached) :: rest =>
    let progress := progress.interrupt
    if option.takesValue then
      match attached, rest with
      | some value, rest =>
        takeWords { progress with arguments := progress.arguments.withValue option value } rest
      | none, (value, .operand) :: rest =>
        takeWords { progress with arguments := progress.arguments.withValue option value } rest
      | none, _ => .error (.usage (.missingValue option))
    else do
      let options ← flags spelling option attached
      let arguments ← options.foldlM withFlag progress.arguments
      takeWords { progress with arguments } rest

/-- The arguments that words stand for. -/
def ofWords (words : List String) : Except Stop Arguments := do
  let classes ← (classifyAll words).mapError Stop.usage
  let progress ← takeWords .start classes
  if progress.refused.isEmpty then return progress.arguments
  else throw (.usage (.unrecognized progress.refused))

end Arguments

/-- The configuration that arguments stand for. Endings without a dot in front get one. -/
def Config.ofArguments (arguments : Arguments) : Config :=
  let named (given : Option (List String)) (fallback : List String) : List String :=
    match given with
    | none | some [] => fallback
    | some names => names
  let standard : Config := {}
  { checks := named arguments.check standard.checks
    suffixes := (named arguments.suffix standard.suffixes).map fun suffix =>
      if ['.'].isPrefixOf suffix.toList then suffix else "." ++ suffix
    followSymlinks := arguments.followSymlinks }

end StraySemicolon

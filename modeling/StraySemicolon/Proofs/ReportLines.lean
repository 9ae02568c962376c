import StraySemicolon.Proofs.Containment
import StraySemicolon.Proofs.Declarations
import StraySemicolon.Proofs.WarningLines

/-!
# Lines that report issues

A line begins with a path, which may hold colons and digits itself, or be empty, in which case its
colon is missing too. The line is therefore read from its end: what follows the place is the same
for all issues of one sort and one text, and numbers hold no colon. So the last colon before that
end stands in front of the column, the one before in front of the line number, and the path is
whatever is left.

A walk reports no place twice, so that no line is printed twice for one file.
-/

namespace StraySemicolon

/-! ## Reading a line from its end -/

/-- The characters before and after the last occurrence of a mark. If there is none, all of them
stand after it and nothing stands before. -/
def cutAtLast (mark : Char) : List Char → Option (List Char) × List Char
  | [] => (none, [])
  | character :: rest =>
    match cutAtLast mark rest with
    | (some before, after) => (some (character :: before), after)
    | (none, _) => if character = mark then (some [], rest) else (none, character :: rest)

theorem cutAtLast_of_not_mem (mark : Char) (characters : List Char) (absent : mark ∉ characters) :
    cutAtLast mark characters = (none, characters) := by
  induction characters with
  | nil => rfl
  | cons character rest inductionHypothesis =>
    have later : mark ∉ rest := fun member => absent (List.mem_cons_of_mem _ member)
    have different : character ≠ mark := fun same => absent (List.mem_cons.mpr (Or.inl same.symm))
    rw [cutAtLast, inductionHypothesis later]
    exact if_neg different

/-- A mark that does not come again is the last one. -/
theorem cutAtLast_append_cons (mark : Char) (before after : List Char) (absent : mark ∉ after) :
    cutAtLast mark (before ++ mark :: after) = (some before, after) := by
  induction before with
  | nil =>
    rw [List.nil_append, cutAtLast, cutAtLast_of_not_mem mark after absent]
    exact if_pos rfl
  | cons character rest inductionHypothesis =>
    rw [List.cons_append, cutAtLast, inductionHypothesis]

/-- Where an issue is said to be: the path of the file, the line and the column. -/
abbrev Location := String × Int × Int

/-- Reads a location that ends a text. -/
def Location.read (characters : List Char) : Option Location := do
  let (before, col) := cutAtLast ':' characters
  let (path, line) := cutAtLast ':' (← before)
  let line ← readNumber line
  let col ← readNumber col
  return (String.ofList (path.getD []), line, col)

namespace Issue

/-- How the lines of all issues of one sort with one text end. -/
def ending (kind message : String) : String :=
  s!": {message} [{kind}]"

/-- Reads the location off a line that reports an issue of a known sort with a known text. -/
def readLine (kind message line : String) : Option Location :=
  Location.read (line.toList.take (line.length - (ending kind message).length))

/-- The characters of a location, as a line begins with them. -/
def location (path : String) (line col : Int) : List Char :=
  (if path = "" then [] else path.toList ++ [':']) ++ (line.repr.toList ++ ':' :: col.repr.toList)

theorem toList_format (issue : Issue) (path : String) :
    (issue.format path).toList =
      location path issue.line issue.col ++ (ending issue.kind issue.message).toList := by
  have written : issue.format path =
      (if path = "" then "" else path ++ ":") ++ issue.line.repr ++ ":" ++ issue.col.repr ++
        ": " ++ issue.message ++ " [" ++ issue.kind ++ "]" := rfl
  have closed : ending issue.kind issue.message =
      ": " ++ issue.message ++ " [" ++ issue.kind ++ "]" := rfl
  have colon (rest : List Char) : ":".toList ++ rest = ':' :: rest := rfl
  rw [written, closed, location]
  split <;>
    simp only [String.toList_append, List.append_assoc, colon, List.cons_append, List.nil_append,
      String.toList_empty]

end Issue

/-- A location is read back, whatever the path looks like. The path ends where the two numbers
begin, and only the empty path has no colon after it. -/
theorem Location.read_location (path : String) (line col : Int) :
    Location.read (Issue.location path line col) = some (path, line, col) := by
  have absent (number : Int) : ':' ∉ number.repr.toList :=
    Int.not_mem_repr number (by decide) (by decide)
  have last : cutAtLast ':' (Issue.location path line col) =
      (some ((if path = "" then [] else path.toList ++ [':']) ++ line.repr.toList),
        col.repr.toList) := by
    rw [Issue.location, ← List.append_assoc]
    exact cutAtLast_append_cons ':' _ _ (absent col)
  rw [Location.read, last]
  -- The empty path leaves no colon to find in front of the line number.
  by_cases empty : path = ""
  · have first := cutAtLast_of_not_mem ':' _ (absent line)
    simp only [if_pos empty, List.nil_append, Option.bind_eq_bind, Option.bind_some, first,
      readNumber_repr]
    rw [empty]
    rfl
  · have first := cutAtLast_append_cons ':' path.toList _ (absent line)
    simp only [if_neg empty, List.append_assoc, List.singleton_append, Option.bind_eq_bind,
      Option.bind_some, first, Option.getD_some, String.ofList_toList, readNumber_repr]
    rfl

namespace Issue

/-- The location is read back from the line of an issue. -/
theorem readLine_format (issue : Issue) (path : String) :
    readLine issue.kind issue.message (issue.format path) = some (path, issue.line, issue.col) := by
  have length : (issue.format path).length - (ending issue.kind issue.message).length =
      (location path issue.line issue.col).length := by
    rw [← String.length_toList, ← String.length_toList, toList_format, List.length_append,
      Nat.add_sub_cancel]
  rw [readLine, length, toList_format, List.take_left, Location.read_location]

/-- Issues of one sort with one text have the same line only at the same location. -/
theorem format_inj (issue other : Issue) (path otherPath : String)
    (sameKind : issue.kind = other.kind) (sameMessage : issue.message = other.message) :
    issue.format path = other.format otherPath ↔
      path = otherPath ∧ issue.line = other.line ∧ issue.col = other.col := by
  constructor
  · intro same
    have read := readLine_format issue path
    rw [same, sameKind, sameMessage, readLine_format, Option.some_inj, Prod.mk.injEq,
      Prod.mk.injEq] at read
    exact ⟨read.1.symm, read.2.1.symm, read.2.2.symm⟩
  · rintro ⟨rfl, line, col⟩
    obtain ⟨kind, line, col, message⟩ := issue
    obtain rfl : kind = _ := sameKind
    subst line col sameMessage
    rfl

end Issue

/-! ## The lines of a file -/

/-- The issues that are reported for a file. -/
def issuesAt (parser : Parser) (disk : Disk Id) (config : Config) (file : Path) : List Issue :=
  match Id.run (disk.read file) with
  | .ok source => issuesOf parser config source
  | .error _ => []

theorem linesOf_eq (parser : Parser) (disk : Disk Id) (config : Config) (file : Path) :
    linesOf parser disk config file = (issuesAt parser disk config file).map fun issue =>
      issue.format file.text := by
  rw [linesOf, issuesAt]
  cases Id.run (disk.read file) <;> rfl

/-- The issues of a source have one sort and one text, and each stands after those before it. -/
theorem issuesOf_sorted_and_uniform (parser : Parser) (config : Config) (source : Bytes) :
    (issuesOf parser config source).Pairwise (fun first second =>
        first.line < second.line ∨ first.line = second.line ∧ first.col < second.col) ∧
      ∀ issue ∈ issuesOf parser config source,
        issue.kind = MemberSemicolon.issueKind ∧ issue.message = MemberSemicolon.message := by
  rw [issuesOf, lint]
  cases resolved : Check.resolve (some config.checks) with
  | error unknown => exact ⟨List.Pairwise.nil, fun _ member => absurd member List.not_mem_nil⟩
  | ok checks =>
    have uniform := uniform_raised checks (Check.mem_registered_of_resolve _ checks resolved)
      (parser.parse source).root
    have reported := Walk.sorted_firsts_of_uniform _ _ _ uniform
    simp only [Walk.run_eq]
    exact ⟨reported.1, fun issue member => uniform issue ((reported.2 issue).mp member)⟩

/-- What is known of issues of sources holds of the issues of a file, which has none if it has no
source. -/
theorem issuesAt_sorted_and_uniform (parser : Parser) (disk : Disk Id) (config : Config)
    (file : Path) :
    (issuesAt parser disk config file).Pairwise (fun first second =>
        first.line < second.line ∨ first.line = second.line ∧ first.col < second.col) ∧
      ∀ issue ∈ issuesAt parser disk config file,
        issue.kind = MemberSemicolon.issueKind ∧ issue.message = MemberSemicolon.message := by
  rw [issuesAt]
  cases Id.run (disk.read file) with
  | ok source => exact issuesOf_sorted_and_uniform parser config source
  | error fault => exact ⟨List.Pairwise.nil, fun _ member => absurd member List.not_mem_nil⟩

/-- No line is printed twice for a file: its issues stand at different places, so their lines
differ. -/
theorem linesOf_nodup (parser : Parser) (disk : Disk Id) (config : Config) (file : Path) :
    (linesOf parser disk config file).Nodup := by
  obtain ⟨sorted, uniform⟩ := issuesAt_sorted_and_uniform parser disk config file
  rw [linesOf_eq, List.Nodup, List.pairwise_map]
  refine sorted.imp_of_mem ?_
  intro first second memberFirst memberSecond before same
  obtain ⟨kind, message⟩ := uniform first memberFirst
  obtain ⟨otherKind, otherMessage⟩ := uniform second memberSecond
  obtain ⟨-, line, col⟩ := (Issue.format_inj first second _ _ (kind.trans otherKind.symm)
    (message.trans otherMessage.symm)).mp same
  omega

/-- The lines of a file tell where its issues are. -/
theorem map_readLine_linesOf (parser : Parser) (disk : Disk Id) (config : Config) (file : Path) :
    (linesOf parser disk config file).map
      (Issue.readLine MemberSemicolon.issueKind MemberSemicolon.message) =
      (issuesAt parser disk config file).map fun issue =>
        some (file.text, issue.line, issue.col) := by
  rw [linesOf_eq, List.map_map]
  refine List.map_congr_left ?_
  intro issue member
  obtain ⟨kind, message⟩ := (issuesAt_sorted_and_uniform parser disk config file).2 issue member
  have read := issue.readLine_format file.text
  rw [kind, message] at read
  exact read

/-- A line for a file has a line feed only if the path of the file has one. -/
theorem newline_not_mem_linesOf (parser : Parser) (disk : Disk Id) (config : Config) (file : Path)
    (whole : '\n' ∉ file.text.toList) :
    ∀ line ∈ linesOf parser disk config file, '\n' ∉ line.toList := by
  intro line member
  rw [linesOf_eq] at member
  obtain ⟨issue, reported, rfl⟩ := List.mem_map.mp member
  obtain ⟨kind, message⟩ :=
    (issuesAt_sorted_and_uniform parser disk config file).2 issue reported
  have number (number : Int) : '\n' ∉ number.repr.toList :=
    Int.not_mem_repr number (by decide) (by decide)
  have start : '\n' ∉ if file.text = "" then [] else file.text.toList ++ [':'] := by
    split
    · exact List.not_mem_nil
    · simpa using whole
  have ending :
      '\n' ∉ (Issue.ending MemberSemicolon.issueKind MemberSemicolon.message).toList := by decide
  rw [Issue.toList_format, kind, message, Issue.location]
  simp only [List.mem_append, List.mem_cons, not_or]
  exact ⟨⟨start, number _, by decide, number _⟩, ending⟩

/-! ## The lines of a run -/

namespace CommandLine

variable (parser : Parser) (disk : Disk Id) {config : Config} {checks : List Check}

/-- If the checks are known, the report of a file prints the lines of the file. -/
theorem lines_fileReport (known : Check.resolve (some config.checks) = .ok checks) (file : Path) :
    (fileReport parser disk config file).lines = linesOf parser disk config file := by
  by_cases unnamed : Id.run (disk.read file) = .error .nullCharacter
  · rw [fileReport_of_unnamed parser disk config file unnamed, linesOf, unnamed]
  · rw [(Accounts.fileReport parser checks known file unnamed).lines_eq, List.flatMap_singleton]

/-- A run over files prints the lines of the files that it comes to. -/
theorem lines_lintFiles (known : Check.resolve (some config.checks) = .ok checks)
    (files : List Path) :
    ∃ reached, reached <+: files ∧
      (Id.run (lintFiles parser disk config files)).lines =
        reached.flatMap (linesOf parser disk config) ∧
      ((Id.run (lintFiles parser disk config files)).aborted = none → reached = files) := by
  rw [run_lintFiles]
  obtain ⟨_, before, printed, whole⟩ :=
    Report.lines_sequence (files.map (fileReport parser disk config))
  obtain ⟨reached, front, rfl⟩ := List.prefix_map_iff.mp before
  simp only [List.flatMap_map, lines_fileReport parser disk known] at printed
  refine ⟨reached, front, printed, ?_⟩
  intro finished
  exact front.eq_of_length (by simpa using congrArg List.length (whole finished))

/-- A run over paths prints the lines of the files that they stand for, one file after the other, up
to the file that ends it. -/
theorem lines_report (known : Check.resolve (some config.checks) = .ok checks) (paths : List Path) :
    ∃ files, files <+: paths.flatMap (Discovery.filesOf disk config) ∧
      (report parser disk config paths).lines = files.flatMap (linesOf parser disk config) ∧
      ((report parser disk config paths).aborted = none →
        files = paths.flatMap (Discovery.filesOf disk config)) := by
  -- The files of the first path must all be handled before the other paths are looked at.
  induction paths with
  | nil => exact ⟨[], List.prefix_rfl, rfl, fun _ => rfl⟩
  | cons path rest inductionHypothesis =>
    rw [report_cons, List.flatMap_cons, Discovery.filesOf]
    cases Id.run (Discovery.expand disk config path) with
    | error fault => exact ⟨[], List.nil_prefix, rfl, by simp⟩
    | ok found =>
      obtain ⟨reached, front, printed, whole⟩ := lines_lintFiles parser disk known found
      cases ended : (Id.run (lintFiles parser disk config found)).aborted with
      | some fault =>
        simp only [ended, Option.isSome_some, if_true]
        exact ⟨reached, front.trans (List.prefix_append _ _), printed, by simp⟩
      | none =>
        obtain ⟨files, later, lines, all⟩ := inductionHypothesis
        simp only [ended, Option.isSome_none, Bool.false_eq_true, if_false, Report.append, printed,
          whole ended, lines]
        refine ⟨found ++ files, (List.prefix_append_right_inj _).mpr later, ?_, ?_⟩
        · rw [List.flatMap_append]
        · intro finished
          rw [all (by simpa using finished)]

/-- A run of the program over paths prints the lines of files that they stand for: of all of them,
unless a check is not known or a fault ends the run. -/
theorem output_run (words : List String) (arguments : Arguments)
    (parsed : Arguments.ofWords words = .ok arguments) (running : arguments.listChecks = false)
    (given : arguments.paths ≠ []) :
    let config := Config.ofArguments arguments
    let all := arguments.paths.flatMap (Discovery.filesOf disk config)
    ∃ files, files <+: all ∧
      (Id.run (run parser disk words)).output =
        unlines (files.flatMap (linesOf parser disk config)) ∧
      ((∀ name ∈ config.checks, name ∈ Check.registeredNames) →
        ∀ status, (Id.run (run parser disk words)).ending = .exit status → files = all) := by
  intro config all
  have entered : Id.run (run parser disk words) = session parser disk arguments := by
    rw [run, parsed, session]
  rw [entered]
  cases known : Check.resolve (some config.checks) with
  | ok checks =>
    obtain ⟨files, front, lines, whole⟩ := lines_report parser disk known arguments.paths
    rw [session_eq parser disk arguments running given checks known, output_concluded, lines,
      ending_concluded]
    refine ⟨files, front, rfl, ?_⟩
    intro _ status ended
    cases aborted : (report parser disk config arguments.paths).aborted with
    | none => exact whole aborted
    | some fault => simp [config, aborted] at ended
  | error unknown =>
    refine ⟨[], List.nil_prefix, ?_, ?_⟩
    · have some_path : arguments.paths.isEmpty = false := List.isEmpty_eq_false_iff.mpr given
      have refused : Check.resolve (some (Config.ofArguments arguments).checks) = .error unknown :=
        known
      simp only [session, runArguments, running, some_path, refused]
      rfl
    · intro registered
      obtain ⟨checks, resolved⟩ := Check.resolve_of_registered config.checks registered
      rw [known] at resolved
      cases resolved

/-- Lines without line feeds are read back from their text. -/
theorem splitOn_unlines (lines : List String) (whole : ∀ line ∈ lines, '\n' ∉ line.toList) :
    (unlines lines).toList.splitOn '\n' = lines.map String.toList ++ [[]] := by
  induction lines with
  | nil => rfl
  | cons line rest inductionHypothesis =>
    have first :
        (unlines (line :: rest)).toList = line.toList ++ '\n' :: (unlines rest).toList := by
      simp [unlines]
    rw [first, List.splitOn_append_cons_self_of_not_mem (whole line List.mem_cons_self),
      inductionHypothesis fun other member => whole other (List.mem_cons_of_mem _ member)]
    rfl

/-- A printed text reports files if it is made of their lines, one file after the other. No two
lines of a file are the same, and reading them gives its path and the places of its issues, in
order. Unless a path holds a line feed, the text falls apart into the lines again. -/
structure Prints (parser : Parser) (disk : Disk Id) (config : Config) (files : List Path)
    (output : String) : Prop where
  output_eq : output = unlines (files.flatMap (linesOf parser disk config))
  distinct : ∀ file ∈ files, (linesOf parser disk config file).Nodup
  located : ∀ file ∈ files,
    (linesOf parser disk config file).map
      (Issue.readLine MemberSemicolon.issueKind MemberSemicolon.message) =
      (issuesAt parser disk config file).map fun issue => some (file.text, issue.line, issue.col)
  split : (∀ file ∈ files, '\n' ∉ file.text.toList) →
    output.toList.splitOn '\n' =
      (files.flatMap (linesOf parser disk config)).map String.toList ++ [[]]

theorem prints_unlines (config : Config) (files : List Path) :
    Prints parser disk config files (unlines (files.flatMap (linesOf parser disk config))) where
  output_eq := rfl
  distinct file _ := linesOf_nodup parser disk config file
  located file _ := map_readLine_linesOf parser disk config file
  split := by
    intro whole
    apply splitOn_unlines
    intro line member
    obtain ⟨file, listed, printed⟩ := List.mem_flatMap.mp member
    exact newline_not_mem_linesOf parser disk config file (whole file listed) line printed

/-- Issues of one sort with one text have the same line only at the same path, line and column,
whatever the path looks like and whatever the numbers are, and all three are read back from the
line. So it is with the lines that a run prints for files that its paths stand for. These are all of
their files unless a check is not known or a fault ends the run. -/
theorem printed_lines_identify_location :
    (∀ (issue other : Issue) (path otherPath : String),
      issue.kind = other.kind → issue.message = other.message →
        (issue.format path = other.format otherPath ↔
          path = otherPath ∧ issue.line = other.line ∧ issue.col = other.col)) ∧
    (∀ (issue : Issue) (path : String),
      Issue.readLine issue.kind issue.message (issue.format path) =
        some (path, issue.line, issue.col)) ∧
    ∀ (parser : Parser) (disk : Disk Id) (words : List String) (arguments : Arguments),
      Arguments.ofWords words = .ok arguments → arguments.listChecks = false →
        arguments.paths ≠ [] →
        let config := Config.ofArguments arguments
        let all := arguments.paths.flatMap (Discovery.filesOf disk config)
        let session := Id.run (run parser disk words)
        ∃ files, files <+: all ∧ Prints parser disk config files session.output ∧
          ((∀ name ∈ config.checks, name ∈ Check.registeredNames) →
            ∀ status, session.ending = .exit status → files = all) := by
  refine ⟨Issue.format_inj, Issue.readLine_format, ?_⟩
  intro parser disk words arguments parsed running given config all session
  obtain ⟨files, front, output, whole⟩ :=
    output_run parser disk words arguments parsed running given
  refine ⟨files, front, ?_, whole⟩
  simp only [session, output]
  exact prints_unlines parser disk config files

/-- A path that ends like a place, and a column below zero, are told apart from the place itself.
The run on the class prints one line, which is read back to its file, line and column. -/
theorem locations_of_dirtyPath :
    let issue (line col : Int) : Issue :=
      ⟨MemberSemicolon.issueKind, line, col, MemberSemicolon.message⟩
    let line := "Dirty.java:2:16: Unnecessary semicolon. [unnecessary.semicolon]"
    (issue 2 (-1)).format "x:1" ≠ (issue 1 2).format "x" ∧
    (issue 1 2).format "" ≠ (issue 1 2).format "1:2" ∧
    Arguments.ofWords ["Dirty.java"] = .ok { paths := [dirtyPath] } ∧
    (Id.run (run dirtyParser dirtyDisk.toDisk ["Dirty.java"])).output = line ++ "\n" ∧
    Issue.readLine MemberSemicolon.issueKind MemberSemicolon.message line =
      some ("Dirty.java", 2, 16) := by
  have parsed : Arguments.ofWords ["Dirty.java"] = .ok { paths := [dirtyPath] } := by decide +kernel
  have known : Check.resolve (some (Config.ofArguments { paths := [dirtyPath] }).checks) =
      .ok Check.registered := resolve_selection (some 0)
  have accounts :=
    accounts_of_contained dirtyParser dirtyDisk.toDisk known [dirtyPath] fun path member =>
      contained_of_mem_dirty path (List.mem_cons_of_mem _ member)
  obtain ⟨injective, read, printed⟩ := printed_lines_identify_location
  intro issue line
  obtain ⟨files, -, prints, whole⟩ :=
    printed dirtyParser dirtyDisk.toDisk ["Dirty.java"] _ parsed rfl (List.cons_ne_nil _ _)
  obtain ⟨status, ended⟩ :
      ∃ status,
        (Id.run (run dirtyParser dirtyDisk.toDisk ["Dirty.java"])).ending = .exit status := by
    rw [run, parsed]
    change ∃ status,
      (session dirtyParser dirtyDisk.toDisk { paths := [dirtyPath] }).ending = .exit status
    rw [session_eq _ _ _ rfl (List.cons_ne_nil _ _) _ known, ending_concluded, accounts.finished]
    exact ⟨_, rfl⟩
  have all := whole (fun name member => member) status ended
  refine ⟨?_, ?_, parsed, ?_, read (issue 2 16) "Dirty.java"⟩
  · intro same
    exact absurd ((injective (issue 2 (-1)) (issue 1 2) _ _ rfl rfl).mp same) (by decide)
  · intro same
    exact absurd ((injective (issue 1 2) (issue 1 2) _ _ rfl rfl).mp same) (by decide)
  · have standard : Config.ofArguments { paths := [dirtyPath] } = {} := rfl
    rw [prints.output_eq, all, standard, List.flatMap_cons,
      Discovery.filesOf_of_not_directory _ _ _ isDirectory_dirtyPath, List.flatMap_nil,
        List.append_nil,
      List.flatMap_singleton, linesOf_dirtyPath]
    decide

end CommandLine

end StraySemicolon

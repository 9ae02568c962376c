import Mathlib.Data.List.Nodup
import StraySemicolon.Discovery

/-!
# What a search finds

A search goes through the entries of a directory and, before it comes to the next entry, through
everything below an entry that is a directory. Which directories it enters is told by the names on
the way (`Leads`), and a file is found exactly if such a way leads to the directory that lists it
(`mem_below_iff`). Directories that cannot be listed have no entries for a search.
-/

namespace StraySemicolon

/-- What becomes of the answer to whether a path leads to a directory. -/
theorem Disk.run_isDirectory (disk : Disk Id) (path : Path) :
    Id.run (disk.isDirectory path) =
      match Id.run (disk.leadsToDirectory path) with
      | .ok answer => .ok answer
      | .error .nullCharacter => .ok false
      | .error (.system error) =>
        if error.isAbsence then .ok false else .error (.system (error.about path.text)) := by
  rw [Disk.isDirectory, Id.run_bind]
  cases Id.run (disk.leadsToDirectory path) with
  | ok answer => rfl
  | error fault =>
    cases fault with
    | nullCharacter => rfl
    | system error => cases absence : error.isAbsence <;> simp [absence]

namespace Discovery

/-- A path that is no directory stands for itself, and a directory for what is found below it,
sorted. -/
theorem run_expand (disk : Disk Id) (config : Config) (path : Path) :
    Id.run (expand disk config path) =
      (Id.run (disk.isDirectory path)).map fun isDirectory =>
        if isDirectory then (Id.run (below disk config disk.depth path)).mergeSort Path.notAfter
        else [path] := by
  rw [expand, Id.run_bind]
  cases Id.run (disk.isDirectory path) with
  | error fault => rfl
  | ok answer => cases answer <;> rfl

/-- The source files that a path stands for, none if it cannot be looked up. -/
def filesOf (disk : Disk Id) (config : Config) (path : Path) : List Path :=
  match Id.run (expand disk config path) with
  | .ok files => files
  | .error _ => []

theorem filesOf_of_failed (disk : Disk Id) (config : Config) (path : Path) (fault : Fault)
    (failed : Id.run (disk.isDirectory path) = .error fault) : filesOf disk config path = [] := by
  rw [filesOf, run_expand, failed]
  rfl

theorem filesOf_of_not_directory (disk : Disk Id) (config : Config) (path : Path)
    (file : Id.run (disk.isDirectory path) = .ok false) : filesOf disk config path = [path] := by
  rw [filesOf, run_expand, file]
  rfl

/-- The entries of a directory, none if it cannot be listed. -/
def listing (disk : Disk Id) (directory : Path) : List Entry :=
  match Id.run (disk.entries directory) with
  | .ok entries => entries
  | .error _ => []

/-- An entry is a directory in which a search goes on. -/
def Enters (disk : Disk Id) (config : Config) (directory : Path) (entry : Entry) : Prop :=
  match entry.kind with
  | .directory => True
  | .link =>
    config.followSymlinks = true ∧
      Id.run (disk.leadsToDirectory (directory.child entry.name)) = .ok true
  | .other => False

/-- An entry is neither a directory nor a link to one. -/
def IsFile (disk : Disk Id) (directory : Path) (entry : Entry) : Prop :=
  match entry.kind with
  | .directory => False
  | .link => Id.run (disk.leadsToDirectory (directory.child entry.name)) ≠ .ok true
  | .other => True

/-- Names lead from a directory through directories, one inside the other. -/
inductive Leads (disk : Disk Id) (config : Config) : Path → List String → Prop
  | here (directory : Path) : Leads disk config directory []
  | into (directory : Path) (entry : Entry) (names : List String)
      (listed : entry ∈ listing disk directory) (enters : Enters disk config directory entry)
      (further : Leads disk config (directory.child entry.name) names) :
      Leads disk config directory (entry.name :: names)

/-- The path that names lead to from a directory. -/
def descend (directory : Path) (names : List String) : Path :=
  { directory with parts := directory.parts ++ names }

theorem descend_nil (directory : Path) : descend directory [] = directory := by
  simp [descend]

theorem descend_cons (directory : Path) (name : String) (names : List String) :
    descend directory (name :: names) = descend (directory.child name) names := by
  simp [descend, Path.child]

/-- A name has one of the configured endings. -/
theorem selects_iff (config : Config) (name : String) :
    config.selects name = true ↔
      ∃ suffix ∈ config.suffixes, suffix.toList <:+ name.toList := by
  simp [Config.selects, List.any_eq_true]

/-- A path is that of a source file below a directory: names lead to a directory that lists the
file, and the name of the file has one of the configured endings. -/
def IsSourceBelow (disk : Disk Id) (config : Config) (directory file : Path) : Prop :=
  ∃ names entry, Leads disk config directory names ∧
    entry ∈ listing disk (descend directory names) ∧
      IsFile disk (descend directory names) entry ∧
    (∃ suffix ∈ config.suffixes, suffix.toList <:+ entry.name.toList) ∧
    file = descend directory (names ++ [entry.name])

/-- What a search makes of one entry of a directory. -/
def found (disk : Disk Id) (config : Config) (depth : Nat) (directory : Path) (entry : Entry) :
    List Path :=
  let path := directory.child entry.name
  if Id.run (disk.entryIsDirectory entry path) then
    if entry.kind = .link && !config.followSymlinks then []
    else Id.run (below disk config depth path)
  else if config.selects entry.name then [path]
  else []

/-- A search finds what it makes of each entry, one after the other. -/
theorem run_below_succ (disk : Disk Id) (config : Config) (depth : Nat) (directory : Path) :
    Id.run (below disk config (depth + 1) directory) =
      (listing disk directory).flatMap (found disk config depth directory) := by
  rw [below, Id.run_bind, listing]
  cases Id.run (disk.entries directory) with
  | error fault => rfl
  | ok entries =>
    have each (entry : Entry) : Id.run (do
        let path := directory.child entry.name
        if ← disk.entryIsDirectory entry path then
          if entry.kind = .link && !config.followSymlinks then return []
          else below disk config depth path
        else return if config.selects entry.name then [path] else []) =
          found disk config depth directory entry := by
      rw [found, Id.run_bind]
      cases Id.run (disk.entryIsDirectory entry (directory.child entry.name)) with
      | false => rfl
      | true => cases decide (entry.kind = .link) && !config.followSymlinks <;> simp
    rw [List.flatMap_def]
    simp only [Id.run_bind, List.idRun_mapM, each]
    rfl

/-- A path is found at an entry if it is that of a source file or if it is found below a
directory. -/
theorem mem_found_iff (disk : Disk Id) (config : Config) (depth : Nat) (directory : Path)
    (entry : Entry) (file : Path) :
    file ∈ found disk config depth directory entry ↔
      (Enters disk config directory entry ∧
        file ∈ Id.run (below disk config depth (directory.child entry.name))) ∨
      (IsFile disk directory entry ∧ config.selects entry.name = true ∧
        file = directory.child entry.name) := by
  rw [found, Disk.entryIsDirectory, Enters, IsFile]
  cases kind : entry.kind with
  | directory => simp
  | other => simp
  | link =>
    simp only [Id.run_bind]
    cases Id.run (disk.leadsToDirectory (directory.child entry.name)) with
    | error fault => simp
    | ok answer =>
      cases answer with
      | false => simp
      | true => cases config.followSymlinks <;> simp

/-- A search finds exactly the source files to which fewer names lead than its depth allows. -/
theorem mem_below_iff (disk : Disk Id) (config : Config) (depth : Nat) (directory file : Path) :
    file ∈ Id.run (below disk config depth directory) ↔
      ∃ names entry, names.length < depth ∧ Leads disk config directory names ∧
        entry ∈ listing disk (descend directory names) ∧
        IsFile disk (descend directory names) entry ∧ config.selects entry.name = true ∧
        file = descend directory (names ++ [entry.name]) := by
  induction depth generalizing directory with
  | zero =>
    constructor
    · intro member
      exact absurd member List.not_mem_nil
    · rintro ⟨names, _, shallow, _⟩
      exact absurd shallow (Nat.not_lt_zero _)
  | succ depth inductionHypothesis =>
    rw [run_below_succ, List.mem_flatMap]
    constructor
    · rintro ⟨entry, listed, member⟩
      rcases (mem_found_iff disk config depth directory entry file).mp member with
        ⟨enters, deeper⟩ | ⟨isFile, selected, same⟩
      · obtain ⟨names, last, shallow, leads, rest⟩ := (inductionHypothesis _).mp deeper
        refine ⟨entry.name :: names, last, Nat.succ_lt_succ shallow,
          .into directory entry names listed enters leads, ?_⟩
        rw [descend_cons, List.cons_append, descend_cons]
        exact rest
      · refine ⟨[], entry, Nat.succ_pos _, .here directory, ?_⟩
        rw [descend_nil]
        exact ⟨listed, isFile, selected, same⟩
    · rintro ⟨names, last, shallow, leads, listed, isFile, selected, same⟩
      cases leads with
      | here =>
        rw [descend_nil] at listed isFile
        exact ⟨last, listed,
          (mem_found_iff _ _ _ _ _ _).mpr (.inr ⟨isFile, selected, same⟩)⟩
      | into _ entry names first enters further =>
        rw [descend_cons] at listed isFile
        rw [List.cons_append, descend_cons] at same
        have deeper := (inductionHypothesis (directory.child entry.name)).mpr
          ⟨names, last, Nat.lt_of_succ_lt_succ shallow, further, listed, isFile, selected, same⟩
        exact ⟨entry, first, (mem_found_iff _ _ _ _ _ _).mpr (.inl ⟨enters, deeper⟩)⟩

/-- If the depth allows for every way, a search finds exactly the source files. -/
theorem mem_below_iff_isSourceBelow (disk : Disk Id) (config : Config) (depth : Nat)
    (directory file : Path)
    (nested : ∀ names, Leads disk config directory names → names.length < depth) :
    file ∈ Id.run (below disk config depth directory) ↔
      IsSourceBelow disk config directory file := by
  rw [mem_below_iff, IsSourceBelow]
  constructor
  · rintro ⟨names, entry, _, leads, listed, isFile, selected, same⟩
    exact ⟨names, entry, leads, listed, isFile, (selects_iff config _).mp selected, same⟩
  · rintro ⟨names, entry, leads, listed, isFile, selected, same⟩
    exact ⟨names, entry, nested names leads, leads, listed, isFile,
      (selects_iff config _).mpr selected, same⟩

/-- What is found at an entry starts with the path of the entry. -/
theorem parts_of_mem_found (disk : Disk Id) (config : Config) (depth : Nat) (directory : Path)
    (entry : Entry) (file : Path) (member : file ∈ found disk config depth directory entry) :
    file.root = directory.root ∧
      ∃ names, file.parts = directory.parts ++ entry.name :: names := by
  rcases (mem_found_iff disk config depth directory entry file).mp member with
    ⟨_, deeper⟩ | ⟨_, _, same⟩
  · obtain ⟨names, last, _, _, _, _, _, same⟩ := (mem_below_iff _ _ _ _ _).mp deeper
    rw [same]
    exact ⟨rfl, names ++ [last.name], by simp [descend, Path.child]⟩
  · rw [same]
    exact ⟨rfl, [], rfl⟩

/-- If no directory lists a name twice, a search finds nothing twice. -/
theorem below_nodup (disk : Disk Id) (config : Config) (depth : Nat) (directory : Path)
    (distinct : ∀ directory, ((listing disk directory).map Entry.name).Nodup) :
    (Id.run (below disk config depth directory)).Nodup := by
  induction depth generalizing directory with
  | zero => exact List.nodup_nil
  | succ depth inductionHypothesis =>
    rw [run_below_succ, List.nodup_flatMap]
    constructor
    · intro entry _
      rw [found]
      split
      · split
        · exact List.nodup_nil
        · exact inductionHypothesis _
      · split
        · exact List.nodup_singleton _
        · exact List.nodup_nil
    · -- Two entries have different names, and these stand at the same place in all that is found.
      have names :
          (listing disk directory).Pairwise fun first second => first.name ≠ second.name :=
        List.pairwise_map.mp (distinct directory)
      refine names.imp ?_
      intro first second different file inFirst inSecond
      obtain ⟨_, rest, firstParts⟩ := parts_of_mem_found _ _ _ _ _ _ inFirst
      obtain ⟨_, others, secondParts⟩ := parts_of_mem_found _ _ _ _ _ _ inSecond
      have same := List.append_cancel_left (firstParts.symm.trans secondParts)
      exact different (List.cons.inj same).1

end Discovery

end StraySemicolon

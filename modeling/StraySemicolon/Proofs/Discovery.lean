import Mathlib.Data.List.Sort
import Mathlib.Data.String.Basic
import Mathlib.Data.List.Lex
import StraySemicolon.Proofs.MemoryLookup

/-!
# Which files a list of paths stands for

A path that is no directory stands for itself. A directory stands for exactly the source files below
it, each once, in the order of their components: `a/b` comes before `a-b`, although a dash comes
before a slash. The order in which directories list their entries can not be seen in the result.
-/

namespace StraySemicolon

namespace Path

/-- Components are compared as lists of texts are. -/
theorem partsNotAfter_iff (left right : List String) :
    partsNotAfter left right = true ↔ left < right ∨ left = right := by
  induction left generalizing right with
  | nil =>
    cases right with
    | nil => simp [partsNotAfter]
    | cons other others => simp [partsNotAfter, List.nil_lt_cons]
  | cons first rest inductionHypothesis =>
    cases right with
    | nil => simp [partsNotAfter]
    | cons other others =>
      rw [partsNotAfter, List.cons_lt_cons_iff, List.cons.injEq]
      by_cases same : first = other
      · simp [same, inductionHypothesis]
      · simp [same]

theorem notAfter_iff (left right : Path) :
    left.notAfter right = true ↔ left.parts < right.parts ∨ left.parts = right.parts :=
  partsNotAfter_iff left.parts right.parts

theorem notAfter_trans (first second third : Path) (before : first.notAfter second = true)
    (after : second.notAfter third = true) : first.notAfter third = true := by
  rw [notAfter_iff] at before after ⊢
  rcases before with before | same
  · rcases after with after | same
    · exact .inl (List.lt_trans before after)
    · exact .inl (same ▸ before)
  · rwa [same]

theorem notAfter_total (first second : Path) :
    (first.notAfter second || second.notAfter first) = true := by
  rw [Bool.or_eq_true, notAfter_iff, notAfter_iff]
  rcases lt_trichotomy first.parts second.parts with before | same | after
  · exact .inl (.inl before)
  · exact .inl (.inr same)
  · exact .inr (.inl after)

/-- Sorting puts paths that start at one place in strict order, unless one of them is there
twice. -/
theorem strictly_sorted_mergeSort (root : PathRoot) (paths : List Path)
    (rooted : ∀ path ∈ paths, path.root = root) (distinct : paths.Nodup) :
    (paths.mergeSort notAfter).Pairwise fun first second => first.parts < second.parts := by
  have sorted := List.pairwise_mergeSort notAfter_trans notAfter_total paths
  have different := (List.mergeSort_perm paths notAfter).nodup_iff.mpr distinct
  refine (sorted.and different).imp_of_mem ?_
  intro first second firstMember secondMember ⟨before, unequal⟩
  have inPaths (path : Path) (member : path ∈ paths.mergeSort notAfter) : path.root = root :=
    rooted path (List.mem_mergeSort.mp member)
  rcases (notAfter_iff first second).mp before with before | same
  · exact before
  · have sameRoot : first.root = second.root :=
      (inPaths first firstMember).trans (inPaths second secondMember).symm
    cases first
    cases second
    exact absurd (Path.mk.injEq .. ▸ ⟨sameRoot, same⟩) unequal

end Path

namespace Discovery

/-- What a path that the user gave stands for. -/
inductive StandsFor (disk : Disk Id) (config : Config) (path : Path) : List Path → Prop
  /-- A path that does not lead to a directory stands for itself, whatever its ending. -/
  | itself (other : Id.run (disk.leadsToDirectory path) ≠ .ok true) :
      StandsFor disk config path [path]
  /-- A directory stands for the source files below it, in strict order of their components. -/
  | below (files : List Path) (directory : Id.run (disk.leadsToDirectory path) = .ok true)
      (members : ∀ file, file ∈ files ↔ IsSourceBelow disk config path file)
      (sorted : files.Pairwise fun first second => first.parts < second.parts) :
      StandsFor disk config path files

/-- A disk that gives the same answers, except that it lists the entries of directories in another
order. -/
structure Relisted (disk other : Disk Id) : Prop where
  leads_eq (path : Path) :
    Id.run (other.leadsToDirectory path) = Id.run (disk.leadsToDirectory path)
  listing_perm (directory : Path) : (listing other directory).Perm (listing disk directory)
  depth_eq : other.depth = disk.depth

namespace Relisted

variable {disk other : Disk Id} {config : Config} {directory : Path}

theorem refl (disk : Disk Id) : Relisted disk disk :=
  ⟨fun _ => rfl, fun _ => List.Perm.refl _, rfl⟩

theorem symm (relisted : Relisted disk other) : Relisted other disk where
  leads_eq path := (relisted.leads_eq path).symm
  listing_perm directory := (relisted.listing_perm directory).symm
  depth_eq := relisted.depth_eq.symm

theorem enters_iff (relisted : Relisted disk other) (entry : Entry) :
    Enters other config directory entry ↔ Enters disk config directory entry := by
  rw [Enters, Enters, relisted.leads_eq]

theorem isFile_iff (relisted : Relisted disk other) (entry : Entry) :
    IsFile other directory entry ↔ IsFile disk directory entry := by
  rw [IsFile, IsFile, relisted.leads_eq]

theorem leads (relisted : Relisted disk other) {names : List String}
    (way : Leads disk config directory names) : Leads other config directory names := by
  induction way with
  | here directory => exact .here directory
  | into directory entry names listed enters further inductionHypothesis =>
    exact .into directory entry names ((relisted.listing_perm directory).mem_iff.mpr listed)
      ((relisted.enters_iff entry).mpr enters) inductionHypothesis

theorem isSourceBelow (relisted : Relisted disk other) {file : Path}
    (source : IsSourceBelow disk config directory file) :
    IsSourceBelow other config directory file := by
  obtain ⟨names, entry, way, listed, isFile, ending, same⟩ := source
  exact ⟨names, entry, relisted.leads way, (relisted.listing_perm _).mem_iff.mpr listed,
    (relisted.isFile_iff entry).mpr isFile, ending, same⟩

theorem isSourceBelow_iff (relisted : Relisted disk other) (file : Path) :
    IsSourceBelow other config directory file ↔ IsSourceBelow disk config directory file :=
  ⟨relisted.symm.isSourceBelow, relisted.isSourceBelow⟩

end Relisted

/-- What a path stands for is fixed by the disk, and the order of its listings does not matter. -/
theorem StandsFor.unique {disk other : Disk Id} {config : Config} {path : Path}
    {files others : List Path} (relisted : Relisted disk other)
    (first : StandsFor disk config path files)
    (second : StandsFor other config path others) : others = files := by
  cases first with
  | itself noDirectory =>
    cases second with
    | itself => rfl
    | below _ directory => exact absurd ((relisted.leads_eq path).symm.trans directory) noDirectory
  | below files directory members sorted =>
    cases second with
    | itself noDirectory => exact absurd ((relisted.leads_eq path).trans directory) noDirectory
    | below others _ otherMembers otherSorted =>
      have asymmetric : Std.Antisymm fun first second : Path => first.parts < second.parts :=
        ⟨fun _ _ before after => absurd after (List.lt_asymm before)⟩
      have irreflexive : Std.Irrefl fun first second : Path => first.parts < second.parts :=
        ⟨fun _ => List.lt_irrefl _⟩
      refine otherSorted.eq_of_mem_iff sorted ?_
      intro file
      rw [otherMembers, members, relisted.isSourceBelow_iff]

theorem StandsFor.unique_all {disk other : Disk Id} {config : Config} {paths : List Path}
    {groups others : List (List Path)} (relisted : Relisted disk other)
    (first : List.Forall₂ (StandsFor disk config) paths groups)
    (second : List.Forall₂ (StandsFor other config) paths others) : others = groups := by
  induction first generalizing others with
  | nil =>
    cases second
    rfl
  | cons here _ inductionHypothesis =>
    cases second with
    | cons otherHere otherRest =>
      rw [here.unique relisted otherHere, inductionHypothesis otherRest]

/-- If its lookup succeeds or finds nothing, a path is expanded to what it stands for. -/
theorem expand_standsFor (disk : Disk Id) (config : Config) (path : Path)
    (answered : ∀ error, Id.run (disk.leadsToDirectory path) = .error (.system error) →
      error.isAbsence = true)
    (distinct : ∀ directory, ((listing disk directory).map Entry.name).Nodup)
    (nested : ∀ names, Leads disk config path names → names.length < disk.depth) :
    ∃ files, Id.run (expand disk config path) = .ok files ∧
      StandsFor disk config path files := by
  rw [run_expand, Disk.run_isDirectory]
  cases answer : Id.run (disk.leadsToDirectory path) with
  | error fault =>
    have noDirectory : Id.run (disk.leadsToDirectory path) ≠ .ok true := by rw [answer]; nofun
    cases fault with
    | nullCharacter => exact ⟨[path], rfl, .itself noDirectory⟩
    | system error =>
      have absence := answered error answer
      exact ⟨[path], by simp [absence, Except.map], .itself noDirectory⟩
  | ok isDirectory =>
    cases isDirectory with
    | false => exact ⟨[path], rfl, .itself (by rw [answer]; nofun)⟩
    | true =>
      refine ⟨(Id.run (below disk config disk.depth path)).mergeSort Path.notAfter, rfl,
        .below _ answer ?_ ?_⟩
      · intro file
        rw [List.mem_mergeSort, mem_below_iff_isSourceBelow disk config disk.depth path file nested]
      · refine Path.strictly_sorted_mergeSort path.root _ ?_
          (below_nodup disk config disk.depth path distinct)
        intro file member
        obtain ⟨names, entry, _, _, _, _, _, same⟩ := (mem_below_iff _ _ _ _ _).mp member
        rw [same]
        rfl

/-- Paths are expanded one after the other. -/
theorem expandAll_standsFor (disk : Disk Id) (config : Config) (paths : List Path)
    (answered : ∀ path ∈ paths, ∀ error,
      Id.run (disk.leadsToDirectory path) = .error (.system error) → error.isAbsence = true)
    (distinct : ∀ directory, ((listing disk directory).map Entry.name).Nodup)
    (nested : ∀ path ∈ paths, ∀ names,
      Leads disk config path names → names.length < disk.depth) :
    ∃ groups, Id.run (expandAll disk config paths) = .ok groups.flatten ∧
      List.Forall₂ (StandsFor disk config) paths groups := by
  induction paths with
  | nil => exact ⟨[], rfl, .nil⟩
  | cons path rest inductionHypothesis =>
    obtain ⟨files, expanded, standsFor⟩ := expand_standsFor disk config path
      (answered path List.mem_cons_self) distinct (nested path List.mem_cons_self)
    obtain ⟨groups, others, standFor⟩ := inductionHypothesis
      (fun other member => answered other (List.mem_cons_of_mem _ member))
      (fun other member => nested other (List.mem_cons_of_mem _ member))
    refine ⟨files :: groups, ?_, .cons standsFor standFor⟩
    rw [expandAll, Id.run_bind, expanded]
    simp only [Id.run_bind, others]
    rfl

/-- Every path that the user gave is expanded to exactly what it stands for, in the order in which
the paths were given, and the order in which directories list their entries makes no difference.

Lookups of the paths may find nothing, but not fail otherwise. No directory lists a name twice.
Below the paths there are finitely many directories and no links in circles: no way is as long as
the depth of the disk. In memory this holds of every path (`MemoryDisk.nested`). -/
theorem expandAll_exact (disk : Disk Id) (config : Config) (paths : List Path)
    (answered : ∀ path ∈ paths, ∀ error,
      Id.run (disk.leadsToDirectory path) = .error (.system error) → error.isAbsence = true)
    (distinct : ∀ directory, ((listing disk directory).map Entry.name).Nodup)
    (nested : ∀ path ∈ paths, ∀ names,
      Leads disk config path names → names.length < disk.depth) :
    ∃ groups, Id.run (expandAll disk config paths) = .ok groups.flatten ∧
      List.Forall₂ (StandsFor disk config) paths groups ∧
      ∀ other,
        Relisted disk other → Id.run (expandAll other config paths) = .ok groups.flatten := by
  obtain ⟨groups, expanded, standFor⟩ :=
    expandAll_standsFor disk config paths answered distinct nested
  refine ⟨groups, expanded, standFor, ?_⟩
  intro other relisted
  obtain ⟨otherGroups, otherExpanded, otherStandFor⟩ := expandAll_standsFor other config paths
    (fun path member error refused =>
      answered path member error ((relisted.leads_eq path).symm.trans refused))
    (fun directory =>
      (((relisted.listing_perm directory).map Entry.name).nodup_iff).mpr (distinct directory))
    (fun path member names way => by
      rw [relisted.depth_eq]
      exact nested path member names (relisted.symm.leads way))
  rw [otherExpanded, StandsFor.unique_all relisted standFor otherStandFor]

/-- A disk with two directories whose names begin alike, and a link to one of them. -/
def twoDirectories : MemoryDisk where
  nodes :=
    [(["work"], .directory), (["work", "notes.txt"], .file []), (["work", "a-b"], .directory),
      (["work", "link"], .link "a"), (["work", "a-b", "B.java"], .file []),
      (["work", "a"], .directory), (["work", "a", "C.java"], .file [])]
  working := ["work"]

theorem twoDirectories_wellFormed : twoDirectories.WellFormed where
  distinct := by decide
  named location node stands := by
    have all : ∀ place ∈ twoDirectories.nodes.map Prod.fst, "" ∉ place := by decide
    exact all location (List.mem_map_of_mem stands)

theorem locate_working :
    twoDirectories.locate ⟨.working, []⟩ = .ok ["work"] := by
  have clean : ".".toList.contains (Char.ofNat 0) = false := by decide
  have short : ¬ MemoryDisk.pathLimit < ".".utf8ByteSize := by decide
  rw [MemoryDisk.locate, show (Path.mk .working []).text = "." from rfl, clean,
    if_neg Bool.false_ne_true, if_neg short, MemoryDisk.follow]
  rfl

theorem listing_working :
    listing twoDirectories.toDisk ⟨.working, []⟩ =
      [⟨"notes.txt", .other⟩, ⟨"a-b", .directory⟩, ⟨"link", .link⟩,
        ⟨"a", .directory⟩] := by
  rw [MemoryDisk.listing_of_locate _ _ _ locate_working]
  rfl

/-- Each of the directories lists one file. -/
theorem listing_dashed :
    listing twoDirectories.toDisk ⟨.working, ["a-b"]⟩ = [⟨"B.java", .other⟩] := by
  have located : twoDirectories.locate ⟨.working, ["a-b"]⟩ = .ok ["work", "a-b"] := by
    rw [MemoryDisk.locate_name _ _ (by decide) (by decide),
      MemoryDisk.follow_entry twoDirectories _ _ _ .directory rfl (by decide) (by decide) rfl nofun]
    rfl
  rw [MemoryDisk.listing_of_locate _ _ _ located]
  rfl

theorem listing_plain :
    listing twoDirectories.toDisk ⟨.working, ["a"]⟩ = [⟨"C.java", .other⟩] := by
  have located : twoDirectories.locate ⟨.working, ["a"]⟩ = .ok ["work", "a"] := by
    rw [MemoryDisk.locate_name _ _ (by decide) (by decide),
      MemoryDisk.follow_entry twoDirectories _ _ _ .directory rfl (by decide) (by decide) rfl nofun]
    rfl
  rw [MemoryDisk.listing_of_locate _ _ _ located]
  rfl

/-- A directory that lists a single file has nothing else below it. -/
theorem eq_of_single_file {disk : Disk Id} {config : Config} {directory : Path} {file : String}
    (lists : listing disk directory = [⟨file, .other⟩]) {names : List String} {entry : Entry}
    (way : Leads disk config directory names)
    (listed : entry ∈ listing disk (descend directory names)) :
    names = [] ∧ entry = ⟨file, .other⟩ := by
  cases way with
  | here =>
    rw [descend_nil, lists, List.mem_singleton] at listed
    exact ⟨rfl, listed⟩
  | into _ deeper _ enterable enters =>
    rw [lists, List.mem_singleton] at enterable
    rw [enterable] at enters
    exact enters.elim

/-- The source files of the sample: one in each directory. -/
theorem isSourceBelow_working (file : Path) :
    IsSourceBelow twoDirectories.toDisk {} ⟨.working, []⟩ file ↔
      file ∈ [Path.mk .working ["a", "C.java"], ⟨.working, ["a-b", "B.java"]⟩] := by
  constructor
  · rintro ⟨names, entry, way, listed, isFile, ending, rfl⟩
    cases way with
    | here =>
      -- No name in the working directory has the ending.
      change entry ∈ listing twoDirectories.toDisk ⟨.working, []⟩ at listed
      simp only [listing_working, List.mem_cons, List.not_mem_nil, or_false] at listed
      rcases listed with rfl | rfl | rfl | rfl <;> exact absurd ending (by decide)
    | into _ first further enterable enters way =>
      rw [descend_cons] at listed
      simp only [listing_working, List.mem_cons, List.not_mem_nil, or_false] at enterable
      rcases enterable with rfl | rfl | rfl | rfl
      · exact enters.elim
      · obtain ⟨rfl, rfl⟩ := eq_of_single_file listing_dashed way listed
        exact List.mem_cons_of_mem _ List.mem_cons_self
      · exact absurd enters.1 nofun
      · obtain ⟨rfl, rfl⟩ := eq_of_single_file listing_plain way listed
        exact List.mem_cons_self
  · intro member
    have inside (directory file : String)
        (listed : ⟨directory, .directory⟩ ∈ listing twoDirectories.toDisk ⟨.working, []⟩)
        (lists : listing twoDirectories.toDisk ⟨.working, [directory]⟩ = [⟨file, .other⟩])
        (ending : ".java".toList <:+ file.toList) :
        IsSourceBelow twoDirectories.toDisk {} ⟨.working, []⟩
          ⟨.working, [directory, file]⟩ :=
      ⟨[directory], ⟨file, .other⟩,
        .into _ ⟨directory, .directory⟩ [] listed trivial (.here _),
        lists ▸ List.mem_cons_self, trivial, ⟨".java", List.mem_cons_self, ending⟩, rfl⟩
    rcases List.mem_pair.mp member with rfl | rfl
    · exact inside "a" "C.java" (by rw [listing_working]; decide) listing_plain (by decide)
    · exact inside "a-b" "B.java" (by rw [listing_working]; decide) listing_dashed (by decide)

/-- The source files of both directories are found, and none through the link. `a/C.java` comes
before `a-b/B.java`. -/
theorem expandAll_twoDirectories :
    (∀ path ∈ [Path.mk .working []], ∀ error,
      Id.run (twoDirectories.toDisk.leadsToDirectory path) = .error (.system error) →
        error.isAbsence = true) ∧
    (∀ directory, ((listing twoDirectories.toDisk directory).map Entry.name).Nodup) ∧
    (∀ path ∈ [Path.mk .working []], ∀ names, Leads twoDirectories.toDisk {} path names →
      names.length < twoDirectories.toDisk.depth) ∧
    Id.run (expandAll twoDirectories.toDisk {} [⟨.working, []⟩]) =
      .ok [⟨.working, ["a", "C.java"]⟩, ⟨.working, ["a-b", "B.java"]⟩] := by
  have directory :
      Id.run (twoDirectories.toDisk.leadsToDirectory ⟨.working, []⟩) = .ok true := by
    change twoDirectories.leadsToDirectory _ = _
    rw [MemoryDisk.leadsToDirectory, locate_working]
    rfl
  have answered : ∀ path ∈ [Path.mk .working []], ∀ error,
      Id.run (twoDirectories.toDisk.leadsToDirectory path) = .error (.system error) →
        error.isAbsence = true := by
    intro path member error refused
    rw [List.mem_singleton.mp member, directory] at refused
    exact absurd refused nofun
  have distinct := twoDirectories.listing_distinct twoDirectories_wellFormed
  have nested : ∀ path ∈ [Path.mk .working []], ∀ names,
      Leads twoDirectories.toDisk {} path names →
      names.length < twoDirectories.toDisk.depth :=
    fun path _ names => twoDirectories.nested twoDirectories_wellFormed {} path names
  obtain ⟨groups, expanded, standFor, _⟩ :=
    expandAll_exact twoDirectories.toDisk {} [⟨.working, []⟩] answered distinct nested
  have files : StandsFor twoDirectories.toDisk {} ⟨.working, []⟩
      [⟨.working, ["a", "C.java"]⟩, ⟨.working, ["a-b", "B.java"]⟩] :=
    .below _ directory (fun file => (isSourceBelow_working file).symm) (by simp; decide)
  have same := StandsFor.unique_all (Relisted.refl _) (.cons files .nil) standFor
  refine ⟨answered, distinct, nested, ?_⟩
  rw [expanded, same]
  rfl

end Discovery

end StraySemicolon

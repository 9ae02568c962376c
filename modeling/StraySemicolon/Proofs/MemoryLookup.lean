import Mathlib.Data.List.Nodup
import StraySemicolon.Disk.Memory
import StraySemicolon.Proofs.Search

/-!
# Lookups and listings in memory

The answers of a disk in memory about a name in its working directory: the name is free, a file
stands there, or the name is longer than any that can stand anywhere.

A directory in memory lists no name twice if nothing stands twice in the table. However links lead,
no search goes deeper than the depth of the disk: the path of a directory that lists anything is not
too long, and it has a byte for every name and every slash.
-/

namespace StraySemicolon.MemoryDisk

/-- A component that is too long is refused before anything is looked up. -/
theorem follow_overlong (disk : MemoryDisk) (links : Nat) (here : List String) (name : String)
    (rest : List String) (inside : disk.node? here = some .directory) (plain : name ≠ "..")
    (long : componentLimit < name.utf8ByteSize) :
    disk.follow links here (name :: rest) = .error .nameTooLong := by
  rw [follow]
  simp only [inside, plain, long, ne_eq, not_true_eq_false, if_false, if_true]

/-- A name leads nowhere if nothing stands there. -/
theorem follow_missing (disk : MemoryDisk) (links : Nat) (here : List String) (name : String)
    (inside : disk.node? here = some .directory) (plain : name ≠ "..")
    (short : name.utf8ByteSize ≤ componentLimit) (missing : disk.node? (here ++ [name]) = none) :
    disk.follow links here [name] = .error .notFound := by
  rw [follow]
  simp only [inside, plain, missing, Nat.not_lt.mpr short, ne_eq, not_true_eq_false, if_false]

/-- A name leads to what stands there if that is no link. -/
theorem follow_entry (disk : MemoryDisk) (links : Nat) (here : List String) (name : String)
    (node : DiskNode) (inside : disk.node? here = some .directory) (plain : name ≠ "..")
    (short : name.utf8ByteSize ≤ componentLimit)
    (stands : disk.node? (here ++ [name]) = some node)
    (noLink : ∀ target, node ≠ .link target) :
    disk.follow links here [name] = .ok (here ++ [name]) := by
  rw [follow]
  simp only [inside, plain, stands, Nat.not_lt.mpr short, ne_eq, not_true_eq_false, if_false]
  cases node with
  | link target => exact absurd rfl (noLink target)
  | file content => simp [follow]
  | directory => simp [follow]

/-- A name is looked up in the working directory. -/
theorem locate_name (disk : MemoryDisk) (name : String) (clean : Char.ofNat 0 ∉ name.toList)
    (short : name.utf8ByteSize ≤ pathLimit) :
    disk.locate ⟨.working, [name]⟩ =
      (disk.follow linkLimit disk.working [name]).mapError .system := by
  have text : Path.text ⟨.working, [name]⟩ = name := by simp [Path.text]
  simp [locate, text, clean, Nat.not_lt.mpr short, start]

/-- A table with one node at each location and no location with an empty name. -/
structure WellFormed (disk : MemoryDisk) : Prop where
  distinct : (disk.nodes.map Prod.fst).Nodup
  named (location : List String) (node : DiskNode) (stands : (location, node) ∈ disk.nodes) :
    "" ∉ location

/-- The name of a location just below another one. -/
def nameBelow (location place : List String) : Option String :=
  if place.dropLast = location then place.getLast? else none

theorem nameBelow_eq_some (location place : List String) (name : String)
    (below : nameBelow location place = some name) : place = location ++ [name] := by
  rw [nameBelow] at below
  split at below
  · rename_i inside
    rw [← inside, List.dropLast_append_getLast? name below]
  · exact absurd below nofun

theorem map_name_entriesAt (disk : MemoryDisk) (location : List String) :
    (disk.entriesAt location).map Entry.name =
      (disk.nodes.map Prod.fst).filterMap (nameBelow location) := by
  rw [entriesAt, List.map_filterMap, List.filterMap_map]
  refine List.filterMap_congr ?_
  rintro ⟨place, node⟩ _
  simp only [nameBelow, Function.comp_apply]
  cases place.getLast? with
  | none => simp
  | some name => by_cases inside : place.dropLast = location <;> simp [inside]

/-- A directory lists no name twice. -/
theorem entriesAt_distinct (disk : MemoryDisk) (wellFormed : disk.WellFormed)
    (location : List String) :
    ((disk.entriesAt location).map Entry.name).Nodup := by
  rw [map_name_entriesAt]
  refine wellFormed.distinct.filterMap ?_
  intro place other name first second
  rw [nameBelow_eq_some location place name first, nameBelow_eq_some location other name second]

theorem name_ne_empty_of_mem_entriesAt (disk : MemoryDisk) (wellFormed : disk.WellFormed)
    (location : List String) (entry : Entry) (listed : entry ∈ disk.entriesAt location) :
    entry.name ≠ "" := by
  have inTable : entry.name ∈ (disk.entriesAt location).map Entry.name :=
    List.mem_map_of_mem listed
  rw [map_name_entriesAt, List.mem_filterMap] at inTable
  obtain ⟨place, stands, below⟩ := inTable
  obtain ⟨⟨other, node⟩, inNodes, same⟩ := List.mem_map.mp stands
  have here : other = location ++ [entry.name] :=
    same.trans (nameBelow_eq_some location place entry.name below)
  intro empty
  apply wellFormed.named other node inNodes
  rw [here, empty]
  exact List.mem_append_right _ List.mem_cons_self

/-- Only a path that is not too long has a location. -/
theorem size_le_of_locate (disk : MemoryDisk) (path : Path) (location : List String)
    (located : disk.locate path = .ok location) : path.text.utf8ByteSize ≤ pathLimit := by
  rw [locate] at located
  split at located
  · exact absurd located nofun
  · split at located
    · exact absurd located nofun
    · rename_i short
      exact Nat.le_of_not_lt short

/-- A directory is listed if its path has a location. -/
theorem listing_of_locate (disk : MemoryDisk) (directory : Path) (location : List String)
    (located : disk.locate directory = .ok location) :
    Discovery.listing disk.toDisk directory =
      if disk.node? location = some .directory then disk.entriesAt location else [] := by
  have listed : Id.run (disk.toDisk.entries directory) =
      if disk.node? location = some .directory then .ok (disk.entriesAt location)
      else .error (.system .notADirectory) := by
    change disk.entries directory = _
    rw [entries, located]
    rfl
  rw [Discovery.listing, listed]
  by_cases stands : disk.node? location = some .directory <;> simp [stands]

/-- A listing is empty, or it is that of a location whose path is not too long. -/
theorem listing_eq (disk : MemoryDisk) (directory : Path) :
    Discovery.listing disk.toDisk directory = [] ∨
      directory.text.utf8ByteSize ≤ pathLimit ∧
        ∃ location, Discovery.listing disk.toDisk directory = disk.entriesAt location := by
  cases located : disk.locate directory with
  | error fault =>
    have failed : Id.run (disk.toDisk.entries directory) = .error fault := by
      change disk.entries directory = _
      rw [entries, located]
      rfl
    exact .inl (by rw [Discovery.listing, failed])
  | ok location =>
    rw [listing_of_locate disk directory location located]
    by_cases stands : disk.node? location = some .directory
    · refine .inr ⟨size_le_of_locate disk directory location located, location, ?_⟩
      rw [if_pos stands]
    · exact .inl (if_neg stands)

theorem name_ne_empty_of_mem_listing (disk : MemoryDisk) (wellFormed : disk.WellFormed)
    (directory : Path) (entry : Entry)
    (listed : entry ∈ Discovery.listing disk.toDisk directory) :
    entry.name ≠ "" := by
  rcases listing_eq disk directory with nothing | ⟨_, location, same⟩
  · rw [nothing] at listed
    exact absurd listed List.not_mem_nil
  · rw [same] at listed
    exact name_ne_empty_of_mem_entriesAt disk wellFormed location entry listed

theorem listing_distinct (disk : MemoryDisk) (wellFormed : disk.WellFormed) (directory : Path) :
    ((Discovery.listing disk.toDisk directory).map Entry.name).Nodup := by
  rcases listing_eq disk directory with nothing | ⟨_, location, same⟩
  · rw [nothing]
    exact List.nodup_nil
  · rw [same]
    exact entriesAt_distinct disk wellFormed location

/-- A path has two bytes for every name at its end, but for the slash that may be missing before the
first one. -/
theorem length_le_size_intercalate (front names : List String) (named : "" ∉ names) :
    2 * names.length ≤ ("/".intercalate (front ++ names)).utf8ByteSize + 1 := by
  have slash : "/".utf8ByteSize = 1 := rfl
  induction front with
  | nil =>
    induction names with
    | nil => exact Nat.zero_le _
    | cons name rest inductionHypothesis =>
      have present : name.utf8ByteSize ≠ 0 := by
        intro empty
        rw [String.utf8ByteSize_eq_zero_iff] at empty
        exact named (empty ▸ List.mem_cons_self)
      have later := inductionHypothesis fun member => named (List.mem_cons_of_mem _ member)
      cases rest with
      | nil =>
        simp only [List.nil_append, List.length_cons, List.length_nil, String.intercalate_singleton]
        omega
      | cons other others =>
        simp only [List.nil_append, List.length_cons, String.intercalate_cons_cons,
          String.utf8ByteSize_append, slash] at later ⊢
        omega
  | cons part parts inductionHypothesis =>
    cases rest : parts ++ names with
    | nil =>
      have none : names = [] := (List.append_eq_nil_iff.mp rest).2
      rw [none]
      exact Nat.zero_le _
    | cons other others =>
      rw [rest] at inductionHypothesis
      rw [List.cons_append, rest, String.intercalate_cons_cons]
      simp only [String.utf8ByteSize_append, slash]
      omega

theorem length_le_size_text (directory : Path) (names : List String) (named : "" ∉ names) :
    2 * names.length ≤ (Discovery.descend directory names).text.utf8ByteSize + 1 := by
  have below : 2 * names.length ≤
      ("/".intercalate (Discovery.descend directory names).parts).utf8ByteSize + 1 :=
    length_le_size_intercalate directory.parts names named
  unfold Path.text
  cases (Discovery.descend directory names).root with
  | working =>
    simp only
    split
    · rename_i empty
      have none : names = [] := (List.append_eq_nil_iff.mp (List.isEmpty_iff.mp empty)).2
      rw [none]
      exact Nat.zero_le _
    · exact below
  | single =>
    simp only [String.utf8ByteSize_append]
    omega
  | double =>
    simp only [String.utf8ByteSize_append]
    omega

/-- A way ends in a directory that lists something, unless it has no names. -/
theorem listing_of_leads (disk : MemoryDisk) (wellFormed : disk.WellFormed) (config : Config)
    (directory : Path) (names : List String)
    (leads : Discovery.Leads disk.toDisk config directory names) :
    names = [] ∨ ∃ front last, names = front ++ [last] ∧ "" ∉ front ∧
      Discovery.listing disk.toDisk (Discovery.descend directory front) ≠ [] := by
  induction leads with
  | here directory => exact .inl rfl
  | into directory entry names listed _ _ inductionHypothesis =>
    refine .inr ?_
    rcases inductionHypothesis with none | ⟨front, last, split, named, lists⟩
    · refine ⟨[], entry.name, by rw [none]; rfl, List.not_mem_nil, ?_⟩
      rw [Discovery.descend_nil]
      exact List.ne_nil_of_mem listed
    · refine ⟨entry.name :: front, last, by rw [split]; rfl, ?_, ?_⟩
      · intro member
        rcases List.mem_cons.mp member with empty | member
        · exact name_ne_empty_of_mem_listing disk wellFormed directory entry listed empty.symm
        · exact named member
      · rw [Discovery.descend_cons]
        exact lists

/-- No search in memory goes deeper than the depth of the disk. -/
theorem nested (disk : MemoryDisk) (wellFormed : disk.WellFormed) (config : Config)
    (directory : Path) (names : List String)
    (leads : Discovery.Leads disk.toDisk config directory names) :
    names.length < disk.toDisk.depth := by
  change names.length < 4095
  rcases listing_of_leads disk wellFormed config directory names leads with
    none | ⟨front, last, split, named, listed⟩
  · rw [none]
    decide
  · have size := length_le_size_text directory front named
    rcases listing_eq disk (Discovery.descend directory front) with nothing | ⟨short, _⟩
    · exact absurd nothing listed
    · rw [pathLimit] at short
      rw [split, List.length_append, List.length_singleton]
      omega

end StraySemicolon.MemoryDisk

import StraySemicolon.Disk

/-!
# Disks in memory

A snapshot of a file system is a table of nodes by location, with a working directory. The root is a
directory that needs no entry, and an entry is reachable only through directories.

Looking a path up follows links on the way and at the end. A location is a list of components from
the root, without dots. Following more links than the limit is an error, so that links which lead in
circles do no harm.
-/

namespace StraySemicolon

/-- What stands at a location. -/
inductive DiskNode where
  | file (content : Bytes)
  | directory
  /-- A symbolic link with its target as written. -/
  | link (target : String)
deriving DecidableEq, Inhabited, Repr

/-- A file system in memory. -/
structure MemoryDisk where
  nodes : List (List String × DiskNode)
  /-- The location of the working directory. -/
  working : List String
deriving DecidableEq, Inhabited, Repr

namespace MemoryDisk

/-- How many links may be followed for one path. -/
def linkLimit : Nat :=
  40

/-- The most bytes that a component may have. -/
def componentLimit : Nat :=
  255

/-- The most bytes that a whole path may have. -/
def pathLimit : Nat :=
  4095

/-- A disk with nothing but an empty working directory. -/
def empty : MemoryDisk :=
  ⟨[(["work"], .directory)], ["work"]⟩

/-- What stands at a location. -/
def node? (disk : MemoryDisk) (location : List String) : Option DiskNode :=
  if location = [] then some .directory else disk.nodes.lookup location

/-- Where a path starts. -/
def start (disk : MemoryDisk) : PathRoot → List String
  | .working => disk.working
  | .single | .double => []

/-- The location that components lead to from a location, with the number of links that may still be
followed. The last component is followed too if it is a link. -/
def follow (disk : MemoryDisk) (links : Nat) (here : List String) :
    List String → Except SystemError (List String)
  | [] => .ok here
  | name :: rest =>
    if disk.node? here ≠ some .directory then .error .notADirectory
    else if name = ".." then follow disk links here.dropLast rest
    else if componentLimit < name.utf8ByteSize then .error .nameTooLong
    else
      let location := here ++ [name]
      match disk.node? location with
      | none => .error .notFound
      | some (.link target) =>
        match links with
        | 0 => .error .tooManyLinks
        | links + 1 =>
          let origin := match Path.rootOf target.toList with
            | .working => here
            | .single | .double => []
          follow disk links origin (Path.components target ++ rest)
      | some _ => follow disk links location rest
termination_by parts => (links, parts.length)

/-- The location of a path. -/
def locate (disk : MemoryDisk) (path : Path) : Except Fault (List String) :=
  if path.text.toList.contains (Char.ofNat 0) then .error .nullCharacter
  else if pathLimit < path.text.utf8ByteSize then .error (.system .nameTooLong)
  else (disk.follow linkLimit (disk.start path.root) path.parts).mapError .system

/-- The sort of entry a node is. -/
def DiskNode.entryKind : DiskNode → EntryKind
  | .file _ => .other
  | .directory => .directory
  | .link _ => .link

/-- The entries just below a location. -/
def entriesAt (disk : MemoryDisk) (location : List String) : List Entry :=
  disk.nodes.filterMap fun (place, node) =>
    match place.getLast? with
    | some name =>
      if place.dropLast = location then some ⟨name, DiskNode.entryKind node⟩ else none
    | none => none

/-- Whether a path leads to a directory. -/
def leadsToDirectory (disk : MemoryDisk) (path : Path) : Except Fault Bool := do
  let location ← disk.locate path
  return disk.node? location = some .directory

/-- The entries of the directory that a path leads to. -/
def entries (disk : MemoryDisk) (path : Path) : Except Fault (List Entry) := do
  let location ← disk.locate path
  if disk.node? location = some .directory then return disk.entriesAt location
  else throw (.system .notADirectory)

/-- The bytes of the file that a path leads to. -/
def read (disk : MemoryDisk) (path : Path) : Except Fault Bytes := do
  let location ← disk.locate path
  match disk.node? location with
  | some (.file content) => return content
  | some .directory => throw (.system .isADirectory)
  | _ => throw (.system .notFound)

/-- A disk in memory as a disk. A path has fewer components than bytes, so that no directory can be
listed below the depth given here. -/
def toDisk (disk : MemoryDisk) : Disk Id where
  leadsToDirectory path := pure (disk.leadsToDirectory path)
  entries path := pure (disk.entries path)
  read path := pure (disk.read path)
  depth := pathLimit

/-! ## Changes -/

/-- The disk with a node put at a location, in place of what was there. -/
def put (disk : MemoryDisk) (location : List String) (node : DiskNode) : MemoryDisk :=
  { disk with
    nodes := disk.nodes.filter (fun entry => entry.1 ≠ location) ++ [(location, node)] }

/-- The disk with a directory at every location on the way that is still free. -/
def makeDirectories (disk : MemoryDisk) (here : List String) :
    List String → MemoryDisk × List String
  | [] => (disk, here)
  | name :: rest =>
    if name = ".." then makeDirectories disk here.dropLast rest
    else
      let location := here ++ [name]
      match disk.node? location, disk.follow linkLimit here [name] with
      | none, _ => makeDirectories (disk.put location .directory) location rest
      | some _, .ok target => makeDirectories disk target rest
      | some _, .error _ => makeDirectories disk location rest

/-- The disk with the directories that lead to a path, and the location of the path without
following a last link. The working directory and the root have no such location. -/
def prepare (disk : MemoryDisk) (path : Path) : MemoryDisk × Option (List String) :=
  match path.parts.getLast? with
  | none => (disk, none)
  | some name =>
    let (prepared, parent) := disk.makeDirectories (disk.start path.root) path.parts.dropLast
    (prepared, some (parent ++ [name]))

/-- The disk with a file at a path. A link at the path is followed if it leads anywhere. -/
def write (disk : MemoryDisk) (path : Path) (content : Bytes) : MemoryDisk :=
  match disk.prepare path with
  | (prepared, none) => prepared
  | (prepared, some location) =>
    match prepared.follow linkLimit [] location with
    | .ok target => prepared.put target (.file content)
    | .error _ => prepared.put location (.file content)

/-- The disk with a link at a path. -/
def link (disk : MemoryDisk) (path : Path) (target : String) : MemoryDisk :=
  match disk.prepare path with
  | (prepared, none) => prepared
  | (prepared, some location) => prepared.put location (.link target)

/-- The disk with a directory at a path. -/
def makeDirectory (disk : MemoryDisk) (path : Path) : MemoryDisk :=
  (disk.makeDirectories (disk.start path.root) path.parts).1

/-- The disk without what stands at a path and below it. A link is removed, not its target. -/
def remove (disk : MemoryDisk) (path : Path) : MemoryDisk :=
  match path.parts.getLast? with
  | none => disk
  | some name =>
    match disk.follow linkLimit (disk.start path.root) path.parts.dropLast with
    | .error _ => disk
    | .ok parent =>
      let location := parent ++ [name]
      { disk with nodes := disk.nodes.filter fun entry => !location.isPrefixOf entry.1 }

end MemoryDisk

end StraySemicolon

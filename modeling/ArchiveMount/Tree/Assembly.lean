/-
# `ArchiveMount.Tree.Assembly` — from directory records to a tree

A record is accepted unless its name climbs (`..`) or comes to nothing.  Every accepted
path and each of its ancestors is an entry of the tree.  Of several records for one
path the last counts; a file that something lies below gives way to a directory, and
so does an ancestor without a record.

`assemble` gives the entries in the order of a walk: sorted by their components, so
that an entry is followed at once by everything below it.  A map of paths that records are
put into one after the other, and directories afterwards, comes to the same
(`Proofs.Tree.Passes`).
-/
import ArchiveMount.Archive.Entry
import ArchiveMount.Tree.Path

namespace ArchiveMount

/-- One file or directory of a mounted archive. -/
structure TreeEntry where
  path : TreePath
  isDir : Bool
  /-- Length of the decoded content; zero for directories. -/
  size : Nat
  compressedSize : Nat
  modified : Nat
  mode : Option Nat
  headerOffset : Nat
  compression : Compression
  crc32 : UInt32
  encrypted : Bool
  deriving Repr, DecidableEq

namespace TreeEntry

/-- A directory without a record of its own. -/
def synthetic (path : TreePath) (modified : Nat) : TreeEntry where
  path := path
  isDir := true
  size := 0
  compressedSize := 0
  modified := modified
  mode := none
  headerOffset := 0
  compression := .stored
  crc32 := 0
  encrypted := false

/-- The entry a record describes. -/
def ofRecord (path : TreePath) (r : EntryRecord) : TreeEntry where
  path := path
  isDir := r.isDir
  size := if r.isDir then 0 else r.size
  compressedSize := r.compressedSize
  modified := r.modified
  mode := r.unixMode
  headerOffset := r.headerOffset
  compression := r.compression
  crc32 := r.crc32
  encrypted := r.encrypted

/-- The last component of the path; empty for the root. -/
def name (e : TreeEntry) : String := e.path.name

/-- The permission bits of the mode. -/
def permissions (e : TreeEntry) : Option Nat := e.mode.map permissionBits

end TreeEntry

namespace Assembly

/-- The path a record stands at, if it is accepted. -/
def acceptedPath? (r : EntryRecord) : Option TreePath :=
  if TreePath.climbs r.name then none
  else match TreePath.ofText r.name with
    | [] => none
    | path => some path

/-- The latest modification time of all records. -/
def newest (records : List EntryRecord) : Nat :=
  records.foldl (fun t r => max t r.modified) 0

/-- A path of the tree, and a record for it. -/
abbrev Mention := TreePath × Option EntryRecord

/-- What one record says: its ancestors exist, and it stands at its path. -/
def mentions (r : EntryRecord) : List Mention :=
  match acceptedPath? r with
  | none => []
  | some path =>
    ((List.range path.length).drop 1).map (fun n => (path.take n, none)) ++ [(path, some r)]

/-- Put a mention before others; two of one path become one, with the later record. -/
def merge (m : Mention) (rest : List Mention) : List Mention :=
  match rest with
  | [] => [m]
  | n :: rest => if n.1 = m.1 then (m.1, n.2 <|> m.2) :: rest else m :: n :: rest

/-- All paths of the tree in the order of a walk, each with its last record. -/
def places (records : List EntryRecord) : List Mention :=
  ((records.flatMap mentions).mergeSort fun a b => a.1.le b.1).foldr merge []

/-- The entry at a place; `below` says that something lies below it. -/
def entryAt (newest : Nat) (below : Bool) (m : Mention) : TreeEntry :=
  match m.2 with
  | some r => if r.isDir || !below then .ofRecord m.1 r else .synthetic m.1 newest
  | none => .synthetic m.1 newest

/-- The entries of places in the order of a walk, where what lies below a place comes
right after it. -/
def entries (newest : Nat) : List Mention → List TreeEntry
  | [] => []
  | [m] => [entryAt newest false m]
  | m :: n :: rest => entryAt newest (m.1.isPrefixOf n.1) m :: entries newest (n :: rest)

end Assembly

/-- The entries of the tree of an archive, but for the root, in the order of a walk. -/
def assemble (records : List EntryRecord) : List TreeEntry :=
  Assembly.entries (Assembly.newest records) (Assembly.places records)

end ArchiveMount

/-
# `ArchiveMount.Tree.Basic` — the tree of a mounted archive

A `Tree` is made once for a mount and does not change.  Paths are given as text and
read the way archive names are.
-/
import ArchiveMount.Locator.Basic
import ArchiveMount.Tree.Assembly
import ArchiveMount.Tree.Error

namespace ArchiveMount

/-- The index of one archive. -/
structure Tree where
  locator : Locator
  objectSize : Nat
  root : TreeEntry
  /-- All entries but the root, in the order of a walk. -/
  entries : List TreeEntry

namespace Tree

/-- The tree of an archive's records. -/
def ofRecords (locator : Locator) (objectSize : Nat) (records : List EntryRecord) : Tree where
  locator := locator
  objectSize := objectSize
  root := .synthetic [] (Assembly.newest records)
  entries := assemble records

/-- Number of entries, the root not counted. -/
def size (t : Tree) : Nat := t.entries.length

/-- Every entry below the root, depth first, children by name. -/
def walk (t : Tree) : List TreeEntry := t.entries

/-- The entry at a path. -/
def find? (t : Tree) (path : TreePath) : Option TreeEntry :=
  if path = [] then some t.root else t.entries.find? (·.path = path)

/-- What lies directly below a path, by name. -/
def children (t : Tree) (path : TreePath) : List TreeEntry :=
  t.entries.filter (·.path.parent = path)

/-- The entry at a path. -/
def entryAt (t : Tree) (path : TreePath) : Except TreeError TreeEntry :=
  match t.find? path with
  | some e => .ok e
  | none => .error (.notFound path.render)

/-- The entry a text names. -/
def stat (t : Tree) (text : String) : Except TreeError TreeEntry :=
  t.entryAt (TreePath.ofText text)

/-- What is in the directory at a path. -/
def childrenOf (t : Tree) (path : TreePath) : Except TreeError (List TreeEntry) := do
  let e ← t.entryAt path
  if e.isDir then return t.children e.path else .error (.notDirectory e.path)

/-- What is in the directory a text names. -/
def list (t : Tree) (text : String) : Except TreeError (List TreeEntry) :=
  t.childrenOf (TreePath.ofText text)

end Tree

end ArchiveMount

/-
# `ArchiveMount.Export.Nfs` — the tree by handles

Read-only answers to the requests of NFS version 3.  A request pins the handle it is
about while it runs; a listing pins the handles of its entries until the reply is
built, and leaves the directory and the last entry as the most recently used ones, so
that the next page can be asked for even with the smallest table.
-/
import ArchiveMount.Export.HandleTable
import ArchiveMount.Text.Utf8
import ArchiveMount.Tree.Open

namespace ArchiveMount

/-- Why a request was refused. -/
inductive NfsError
  | notPermitted
  | noEntry
  | io
  | notDirectory
  | isDirectory
  | invalid
  | stale
  | badCookie
  deriving Repr, DecidableEq

/-- What a tree error means to a client. -/
def NfsError.ofTree (e : TreeError) : NfsError :=
  if e.isNotFound then .noEntry
  else match e with
    | .notDirectory _ => .notDirectory
    | .isDirectory _ => .isDirectory
    | _ => .io

/-- What a client sees of a file or directory. -/
structure NfsAttributes where
  isDir : Bool
  mode : Nat
  links : Nat
  size : Nat
  handle : Nat
  /-- Seconds; all times of an entry are its modification time. -/
  time : Nat
  deriving Repr, DecidableEq

/-- One entry of a listing. -/
structure NfsDirEntry where
  handle : Nat
  name : String
  attributes : NfsAttributes
  deriving Repr, DecidableEq

/-- A page of a listing, and whether it is the last one. -/
structure NfsPage where
  entries : List NfsDirEntry
  done : Bool
  deriving Repr, DecidableEq

namespace Nfs

variable {ω σ α : Type}

/-- Handles of the paths of a tree. -/
abbrev Handles := HandleTable TreePath

/-- A request: it sees some world and the handles. -/
abbrev Request (ω α : Type) := Attempt (ω × Handles) NfsError α

/-- The greatest time that fits. -/
def maxSeconds : Nat := 0xffffffff

/-- The attributes of an entry.  Nobody may write. -/
def attributes (handle : Nat) (e : TreeEntry) : NfsAttributes where
  isDir := e.isDir
  mode := (e.permissions.getD (if e.isDir then 0o555 else 0o444)) &&& 0o7555
  links := if e.isDir then 2 else 1
  size := e.size
  handle := handle
  time := min e.modified maxSeconds

/-- Run a request about a handle, which stays pinned meanwhile. -/
def withPin (handle : Nat) (request : TreePath → Request ω α) : Request ω α := fun (w, t) =>
  match t.pin handle with
  | (none, t) => (.error .stale, (w, t))
  | (some path, t) =>
    let (r, w, t) := request path (w, t)
    (r, (w, t.unpin handle))

/-- Change the handles. -/
def onHandles (f : Handles → α × Handles) : Request ω α := fun (w, t) =>
  let (a, t) := f t
  (.ok a, (w, t))

/-- A tree's answer in terms of the protocol. -/
def ofTree (r : Except TreeError α) : Request ω α := Attempt.ofExcept (r.mapError .ofTree)

/-- The handle of what a directory holds under a name.  Dots are followed without a
look at the tree. -/
def lookup (t : Tree) (dir : Nat) (name : Bytes) : Request ω Nat :=
  withPin dir fun path => do
    let e ← ofTree (t.entryAt path)
    if !e.isDir then Attempt.fail .notDirectory
    let name := Text.ofUtf8Lossy name
    if name.toList.any TreePath.isSeparator then Attempt.fail .noEntry
    let target := path.enter name
    let _ ← ofTree (t.entryAt target)
    onHandles (·.handleFor target)

/-- The attributes behind a handle. -/
def getAttributes (t : Tree) (handle : Nat) : Request ω NfsAttributes :=
  withPin handle fun path => do
    let e ← ofTree (t.entryAt path)
    return attributes handle e

/-- Bytes of a file, and whether they reach its end. -/
def read (store : Store σ) (t : Tree) (handle offset count : Nat) :
    Request (σ × Cache) (Bytes × Bool) :=
  withPin handle fun path => do
    let content ← ((t.openPath store path).zoom Prod.fst fun s w => (w, s.2)).mapError .ofTree
    let data := readAt content offset count
    return (data, decide (content.length ≤ addSat offset data.length))

/-! ## Listing -/

/-- Where a page begins: after the entry whose handle is the cookie. -/
def pageStart (children : List TreeEntry) (cookie : Nat) : Request ω Nat :=
  if cookie = 0 then pure 0
  else do
    match ← onHandles (·.pathOf cookie) with
    | none => Attempt.fail .badCookie
    | some path =>
      match children.findIdx? (·.path = path) with
      | some i => return i + 1
      | none => Attempt.fail .badCookie

/-- Give every entry a pinned handle. -/
def pinAll : List TreeEntry → Handles → List NfsDirEntry × Handles
  | [], t => ([], t)
  | e :: rest, t =>
    let (handle, t) := t.pinnedHandleFor e.path
    let (entries, t) := pinAll rest t
    (⟨handle, e.name, attributes handle e⟩ :: entries, t)

/-- What a directory holds, from a cookie on, at most `count` entries. -/
def readDirectory (t : Tree) (dir cookie count : Nat) : Request ω NfsPage :=
  withPin dir fun path => do
    let children ← ofTree (t.childrenOf path)
    let start ← pageStart children cookie
    let entries ← onHandles (pinAll ((children.drop start).take count))
    onHandles fun t => ((), t.promote dir)
    if let some last := entries.getLast? then
      onHandles fun t => ((), t.promote last.handle)
    onHandles fun t => ((), entries.foldl (fun t e => t.unpin e.handle) t)
    return ⟨entries, decide (children.length ≤ start + entries.length)⟩

/-! ## What is not allowed -/

/-- The requests that would change something, and the one for links, which archives
do not have. -/
inductive Refused
  | setAttributes
  | write
  | create
  | createExclusive
  | makeDirectory
  | remove
  | rename
  | makeLink
  | readLink
  deriving Repr, DecidableEq

/-- The answer to a request that is refused without a look at its handle. -/
def Refused.error : Refused → NfsError
  | .readLink => .invalid
  | _ => .notPermitted

end Nfs

end ArchiveMount

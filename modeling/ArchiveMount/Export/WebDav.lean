/-
# `ArchiveMount.Export.WebDav` — the tree by paths

Read-only answers to a WebDAV server.  Whatever would change something is forbidden,
and so is opening a directory.
-/
import ArchiveMount.Export.RequestPath
import ArchiveMount.Text.Utf8
import ArchiveMount.Tree.Open

namespace ArchiveMount

/-- Why a request was refused. -/
inductive DavError
  | notFound
  | forbidden
  | failure
  deriving Repr, DecidableEq

/-- What a tree error means to a client. -/
def DavError.ofTree (e : TreeError) : DavError :=
  if e.isNotFound then .notFound
  else match e with
    | .notDirectory _ => .notFound
    | .isDirectory _ => .forbidden
    | _ => .failure

/-- What a client sees of a file or directory. -/
structure DavMetadata where
  isDir : Bool
  len : Nat
  /-- Seconds; the time of creation is the same. -/
  modified : Nat
  deriving Repr, DecidableEq

/-- How a file is to be opened. -/
structure DavOpenOptions where
  write : Bool := false
  append : Bool := false
  truncate : Bool := false
  create : Bool := false
  createNew : Bool := false
  deriving Repr, DecidableEq

/-- Whether the options ask for more than reading. -/
def DavOpenOptions.changes (o : DavOpenOptions) : Bool :=
  o.write || o.append || o.truncate || o.create || o.createNew

/-- An open file. -/
structure DavFile where
  entry : TreeEntry
  cursor : Cursor

namespace Dav

variable {σ : Type}

def metadataOf (e : TreeEntry) : DavMetadata := ⟨e.isDir, e.size, e.modified⟩

/-- The path of a request in the tree. -/
def treePath (segments : List Bytes) : TreePath := TreePath.ofText (RequestPath.text segments)

/-- What is at a path. -/
def metadata (t : Tree) (segments : List Bytes) : Except DavError DavMetadata :=
  ((t.entryAt (treePath segments)).map metadataOf).mapError .ofTree

/-- What is in the directory at a path. -/
def readDirectory (t : Tree) (segments : List Bytes) :
    Except DavError (List (String × DavMetadata)) :=
  ((t.childrenOf (treePath segments)).map fun children =>
    children.map fun e => (e.name, metadataOf e)).mapError .ofTree

/-- Open a file for reading. -/
def openFile (store : Store σ) (t : Tree) (segments : List Bytes) (options : DavOpenOptions) :
    Attempt (σ × Cache) DavError DavFile := do
  if options.changes then Attempt.fail .forbidden
  let path := treePath segments
  let e ← (Attempt.ofExcept (t.entryAt path)).mapError .ofTree
  if e.isDir then Attempt.fail .forbidden
  let content ← (t.openPath store path).mapError .ofTree
  return ⟨e, { content }⟩

/-- Positions of an open file are 64-bit quantities. -/
def positionLimit : Nat := maxWord + 1

/-- Move in an open file. -/
def seek (f : DavFile) (whence : Whence) (n : Int) : Except DavError DavFile :=
  match f.cursor.seek? positionLimit whence n with
  | some c => .ok { f with cursor := c }
  | none => .error .failure

/-- Read from an open file. -/
def read (f : DavFile) (count : Nat) : Bytes × DavFile :=
  let (data, c) := f.cursor.read count
  (data, { f with cursor := c })

end Dav

end ArchiveMount

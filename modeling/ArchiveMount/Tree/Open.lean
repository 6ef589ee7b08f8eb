/-
# `ArchiveMount.Tree.Open` — reading the files of a tree

A file is fetched and decoded when it is first opened, and served from the cache from
then on.  What is served has the length and the checksum that the directory declares.
-/
import ArchiveMount.Archive.Payload
import ArchiveMount.Tree.Build

namespace ArchiveMount

namespace Tree

variable {σ : Type}

/-- Decode a body chunk by chunk. -/
def decodeBody (d : PayloadDecoder) (body : Body) : Except TreeError PayloadDecoder :=
  match d.writeAll body.chunks with
  | .error e => .error (.archive e)
  | .ok d =>
    match body.failure with
    | some e => .error (.object e)
    | none => .ok d

/-- Fetch and decode a file. -/
def fetch (store : Store σ) (t : Tree) (e : TreeEntry) : Attempt σ TreeError Bytes := do
  let range := ByteRange.ofSpan e.headerOffset LocalHeader.fixedLen
  let raw ← (store.readRange t.locator range).mapError .object
  let header ← (Attempt.ofExcept (LocalHeader.parse raw)).mapError .archive
  let start := header.dataOffset e.headerOffset
  if t.objectSize < addSat start e.compressedSize then
    Attempt.fail (.archive (.malformed (.payloadPastEnd e.path.render)))
  let d ← (Attempt.ofExcept (PayloadDecoder.new e.compression e.size e.crc32)).mapError .archive
  let d ←
    if 0 < e.compressedSize then do
      let body ← (store.download t.locator (.ofSpan start e.compressedSize)).mapError .object
      Attempt.ofExcept (decodeBody d body)
    else pure d
  (Attempt.ofExcept d.finish).mapError .archive

/-- The record a file is cached under. -/
def cacheKey (t : Tree) (e : TreeEntry) : CacheKey :=
  .entry t.locator.render e.headerOffset e.compressedSize e.size e.crc32

/-- Whether an entry is a file that can be read. -/
def checkReadable (e : TreeEntry) : Except TreeError Unit :=
  if e.isDir then .error (.isDirectory e.path)
  else if e.encrypted then .error (.unreadable e.path .encrypted)
  else match e.compression with
    | .other id => .error (.unreadable e.path (.method id))
    | _ => .ok ()

/-- The content of the file at a path. -/
def openPath (store : Store σ) (t : Tree) (path : TreePath) :
    Attempt (σ × Cache) TreeError Bytes := do
  let e ← t.entryAt path
  checkReadable e
  let data ← Cache.fill (t.cacheKey e) (t.fetch store e)
  if data.length ≠ e.size then
    Attempt.fail (.archive (.lengthMismatch e.size data.length))
  return data

/-- The content of the file a text names. -/
def open_ (store : Store σ) (t : Tree) (text : String) : Attempt (σ × Cache) TreeError Bytes :=
  t.openPath store (TreePath.ofText text)

end Tree

/-! ## Reading at positions -/

/-- Up to `count` bytes at `offset`: fewer at the end, none past it. -/
def readAt (content : Bytes) (offset count : Nat) : Bytes := Bytes.slice content offset count

/-- Where a seek starts from. -/
inductive Whence
  | start
  | current
  | stop
  deriving Repr, DecidableEq

/-- A position in the content of an open file. -/
structure Cursor where
  content : Bytes
  position : Nat := 0

namespace Cursor

/-- The position that a move leads to. -/
def target (c : Cursor) (whence : Whence) (n : Int) : Int :=
  match whence with
  | .start => n
  | .current => c.position + n
  | .stop => c.content.length + n

/-- Move to a position below `limit`; the end may be passed, the start may not.  A move
that fails changes nothing. -/
def seek? (c : Cursor) (limit : Nat) (whence : Whence) (n : Int) : Option Cursor :=
  let p := c.target whence n
  if 0 ≤ p ∧ p < limit then some { c with position := p.toNat } else none

/-- Read up to `count` bytes and move past them. -/
def read (c : Cursor) (count : Nat) : Bytes × Cursor :=
  let data := readAt c.content c.position count
  (data, { c with position := c.position + data.length })

/-- Read all that is left. -/
def readToEnd (c : Cursor) : Bytes × Cursor := c.read c.content.length

end Cursor

/-- Positions the operating system admits. -/
def fileOffsetLimit : Nat := 0x8000000000000000

end ArchiveMount

/-
# `ArchiveMount.Tree.OnDisk` — indexing and opening over a cache directory

`openIn` and `buildIn` go the way of `open_` and `build`, but write down what is not yet
a record: a payload is decoded into a temporary file, chunk by chunk, and whatever fails on
the way, store, decoder or disk, fails the whole.
-/
import ArchiveMount.Cache.Folder
import ArchiveMount.Tree.Open

namespace ArchiveMount.Tree

variable {σ γ : Type}

/-! ## Whatever the content comes from -/

/-- The content of the file at a path, once `content` gives what is kept for its entry. -/
def openUsing (t : Tree) (content : TreeEntry → Attempt (σ × γ) TreeError Bytes)
    (path : TreePath) : Attempt (σ × γ) TreeError Bytes := do
  let e ← t.entryAt path
  checkReadable e
  let data ← content e
  if data.length ≠ e.size then
    Attempt.fail (.archive (.lengthMismatch e.size data.length))
  return data

/-- The bytes of the directory, once `content` gives what is kept for a range. -/
def readDirectoryUsing (content : CacheKey → ByteRange → Attempt (σ × γ) TreeError Bytes)
    (l : Locator) (objectSize : Nat) (r : EndRecord) : Attempt (σ × γ) TreeError Bytes :=
  let start := r.directoryOffset
  let stop := start + r.directorySize
  if r.directorySize = 0 then pure []
  else if objectSize < stop then Attempt.fail (.archive (.malformed .directoryOutside))
  else content (.range l.render objectSize start stop) (.ofSpan start (stop - start))

/-- Index the archive at a locator, once `content` gives what is kept for a range. -/
def buildUsing (content : CacheKey → ByteRange → Attempt (σ × γ) TreeError Bytes)
    (store : Store σ) (l : Locator) : Attempt (σ × γ) TreeError Tree := do
  let objectSize ← ((store.sizeOf l).mapError .object).onFirst
  let r ← (locateDirectory store l objectSize).onFirst
  let directory ← readDirectoryUsing content l objectSize r
  let records ← (Attempt.ofExcept (CentralDirectory.parse directory r.entries)).mapError .archive
  (Attempt.ofExcept (checkEntries objectSize records)).mapError .archive
  return .ofRecords l objectSize records

theorem openPath_eq (store : Store σ) (t : Tree) :
    t.openPath store = t.openUsing fun e => Cache.fill (t.cacheKey e) (t.fetch store e) := rfl

theorem build_eq_buildUsing (store : Store σ) (l : Locator) :
    build store l = buildUsing (fun k range =>
      Cache.fill k ((store.readRange l range).mapError .object)) store l := rfl

/-! ## Into a temporary file -/

/-- Decode chunks one after the other, and write down what has come out so far. -/
def decodeInto (disk : Disk TreeError) (d : PayloadDecoder) :
    (chunks : List Bytes) → Attempt Bytes TreeError PayloadDecoder
  | [] => pure d
  | chunk :: chunks => do
    let d ← (Attempt.ofExcept (d.write chunk)).mapError .archive
    disk.write d.decoded
    decodeInto disk d chunks

/-- Decode a body, which may break off. -/
def receive (disk : Disk TreeError) (d : PayloadDecoder) (body : Body) :
    Attempt Bytes TreeError PayloadDecoder := do
  let d ← decodeInto disk d body.chunks
  match body.failure with
  | some e => Attempt.fail (.object e)
  | none => return d

/-- Fetch and decode a file. -/
def fetchInto (disk : Disk TreeError) (store : Store σ) (t : Tree) (e : TreeEntry) :
    Attempt (σ × Bytes) TreeError Unit := do
  let range := ByteRange.ofSpan e.headerOffset LocalHeader.fixedLen
  let raw ← ((store.readRange t.locator range).mapError .object).onFirst
  let header ← (Attempt.ofExcept (LocalHeader.parse raw)).mapError .archive
  let start := header.dataOffset e.headerOffset
  if t.objectSize < addSat start e.compressedSize then
    Attempt.fail (.archive (.malformed (.payloadPastEnd e.path.render)))
  let d ← (Attempt.ofExcept (PayloadDecoder.new e.compression e.size e.crc32)).mapError .archive
  let d ←
    if 0 < e.compressedSize then do
      let body ← ((store.download t.locator (.ofSpan start e.compressedSize)).mapError
        .object).onFirst
      (receive disk d body).onSecond
    else pure d
  let data ← (Attempt.ofExcept d.finish).mapError .archive
  (disk.write data).onSecond

/-- Fetch a range and write it down. -/
def rangeInto (disk : Disk TreeError) (store : Store σ) (l : Locator) (range : ByteRange) :
    Attempt (σ × Bytes) TreeError Unit := do
  let data ← ((store.readRange l range).mapError .object).onFirst
  (disk.write data).onSecond

/-! ## Over a folder -/

/-- The content of the file a text names. -/
def openIn (disk : Disk TreeError) (store : Store σ) (t : Tree) (text : String) :
    Attempt (σ × CacheFolder) TreeError Bytes :=
  t.openUsing (fun e => CacheFolder.getOrFill disk (t.cacheKey e) (t.fetchInto disk store e))
    (TreePath.ofText text)

/-- Index the archive at a locator. -/
def buildIn (disk : Disk TreeError) (store : Store σ) (l : Locator) :
    Attempt (σ × CacheFolder) TreeError Tree :=
  buildUsing (fun k range => CacheFolder.getOrFill disk k (rangeInto disk store l range)) store l

end ArchiveMount.Tree

/-
# `ArchiveMount.Tree.Build` — indexing an archive

The end record is sought in windows on the end of the object, each twice as long as
the one before, until one shows it or they show the whole object.  Then the directory
is fetched, through the cache, and its records are put together.  Any failure fails
the whole.

Positions are numbers of any size here.  A store may answer with a window that is longer than
the object: then the window is taken to begin where the object does, and a record that would
leave the window is cut short.  On a machine the difference falls below zero there, or the
slice leaves the window, and the work traps before anything is filed; in all other cases it is
the work of these definitions (`Proofs.Tree.Trapping`).
-/
import ArchiveMount.Archive.Directory
import ArchiveMount.Archive.LocalHeader
import ArchiveMount.Archive.Trailer
import ArchiveMount.Cache.Basic
import ArchiveMount.Object.Store
import ArchiveMount.Tree.Basic

namespace ArchiveMount.Tree

variable {σ : Type}

/-- Lengths of the windows on the end of an object. -/
def windows (objectSize : Nat) : List Nat :=
  ((List.range 64).map fun i => initialTailLen <<< i).takeWhile (· < objectSize)
    ++ [objectSize]

/-- The 64-bit record at `offset`: from the window if it lies in it, else fetched.  Out of a
window that ends before the record does, what there is of it. -/
def zip64Record (store : Store σ) (l : Locator) (objectSize : Nat) (tail : Bytes)
    (offset : Nat) : Attempt σ TreeError Bytes :=
  let tailOffset := objectSize - tail.length
  let len := Zip64EndRecord.fixedLen
  if tailOffset ≤ offset ∧ addSat offset len ≤ objectSize then
    pure (Bytes.slice tail (offset - tailOffset) len)
  else (store.readRange l (.ofSpan offset len)).mapError .object

/-- Look for the end record in one window after the other, each of which begins as far from the
end of the object as it is long, and at most at its start. -/
def searchTail (store : Store σ) (l : Locator) (objectSize : Nat) :
    (windows : List Nat) → Attempt σ TreeError EndRecord
  | [] => Attempt.fail (.archive (.malformed .noEndRecord))
  | window :: rest => do
    let tail ← (store.readRange l (.suffix window)).mapError .object
    let scan ← (Attempt.ofExcept (scanTail tail (objectSize - tail.length))).mapError .archive
    match scan with
    | .directory r => return r
    | .zip64 r offset =>
      let record ← zip64Record store l objectSize tail offset
      (Attempt.ofExcept (resolveZip64 r record offset)).mapError .archive
    | .notFound => searchTail store l objectSize rest

/-- Find the end record of an object. -/
def locateDirectory (store : Store σ) (l : Locator) (objectSize : Nat) :
    Attempt σ TreeError EndRecord :=
  if objectSize < EndRecord.fixedLen then
    Attempt.fail (.archive (.malformed (.objectTooSmall objectSize)))
  else searchTail store l objectSize (windows objectSize)

/-- Fetch the directory, through the cache. -/
def readDirectory (store : Store σ) (l : Locator) (objectSize : Nat) (r : EndRecord) :
    Attempt (σ × Cache) TreeError Bytes :=
  let start := r.directoryOffset
  let stop := start + r.directorySize
  if r.directorySize = 0 then pure []
  else if objectSize < stop then Attempt.fail (.archive (.malformed .directoryOutside))
  else
    Cache.fill (.range l.render objectSize start stop)
      ((store.readRange l (.ofSpan start (stop - start))).mapError .object)

/-- Header and payload of every file must lie inside the object. -/
def checkEntries (objectSize : Nat) (records : List EntryRecord) : Except ArchiveError Unit :=
  match records.find? fun r =>
      !r.isDir && objectSize < r.headerOffset + LocalHeader.fixedLen + r.compressedSize with
  | some r => .error (.malformed (.entryOutside r.name r.headerOffset objectSize))
  | none => .ok ()

/-- Work on a store while a cache stands by. -/
def onStore {ε α : Type} (x : Attempt σ ε α) : Attempt (σ × Cache) ε α :=
  x.zoom Prod.fst fun w s => (s, w.2)

/-- Index the archive at a locator. -/
def build (store : Store σ) (l : Locator) : Attempt (σ × Cache) TreeError Tree := do
  let objectSize ← onStore ((store.sizeOf l).mapError .object)
  let r ← onStore (locateDirectory store l objectSize)
  let directory ← readDirectory store l objectSize r
  let records ← (Attempt.ofExcept (CentralDirectory.parse directory r.entries)).mapError .archive
  (Attempt.ofExcept (checkEntries objectSize records)).mapError .archive
  return .ofRecords l objectSize records

end ArchiveMount.Tree

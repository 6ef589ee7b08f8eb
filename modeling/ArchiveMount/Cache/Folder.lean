/-
# `ArchiveMount.Cache.Folder` — the directory a cache is kept in

A record is written to a temporary file first and then put in its place, so that whoever
looks sees all of it or nothing.  While it is made there is a lock under its digest.  Both
the file and the lock are gone in the end, whatever comes of the attempt
(`Attempt.ensuring`).

`getOrFill` is the way of one call while no other goes on: the lock is free when it is
asked for.  Calls side by side are a `Flight` for each digest, for calls with different
digests have no record, no lock and no temporary file in common.

The operating system may refuse any request to make, to write or to place a file, as a
`Disk` says.  It takes away what is no longer wanted, and it can read what has been placed.
-/
import ArchiveMount.Cache.Basic
import ArchiveMount.Cache.SingleFlight

namespace ArchiveMount

variable {σ ε α : Type}

/-- What the operating system answers when a record is written. -/
structure Disk (ε : Type) where
  /-- To the request for a temporary file. -/
  create : Except ε Unit := .ok ()
  /-- When the file is to have this many bytes. -/
  grow : Nat → Except ε Unit := fun _ => .ok ()
  /-- When the file is to be put in its place. -/
  place : Except ε Unit := .ok ()

/-- Let a temporary file hold these bytes. -/
def Disk.write (disk : Disk ε) (data : Bytes) : Attempt Bytes ε Unit := fun written =>
  match disk.grow data.length with
  | .ok _ => (.ok (), data)
  | .error e => (.error e, written)

/-- A cache directory, and the locks of those who use it. -/
structure CacheFolder where
  cache : Cache := {}
  /-- The temporary files, by their names. -/
  temporaries : List (Nat × Bytes) := []
  /-- The name of the next one. -/
  fresh : Nat := 0
  /-- What the map of locks holds under each digest. -/
  inFlight : String → InFlight := fun _ => {}

namespace CacheFolder

/-- Change what the map of locks holds under one digest. -/
def setInFlight (f : CacheFolder) (digest : String) (m : InFlight) : CacheFolder :=
  { f with inFlight := fun d => if d = digest then m else f.inFlight d }

/-- Give up the lock of a digest. -/
def leave (digest : String) (lock : Nat) (f : CacheFolder) : CacheFolder :=
  f.setInFlight digest (((f.inFlight digest).withdraw lock).release lock)

/-- Make an empty temporary file. -/
def addTemporary (f : CacheFolder) : CacheFolder :=
  { f with temporaries := (f.fresh, []) :: f.temporaries, fresh := f.fresh + 1 }

/-- What a temporary file holds. -/
def temporary (f : CacheFolder) (name : Nat) : Bytes := (f.temporaries.lookup name).getD []

def setTemporary (f : CacheFolder) (name : Nat) (data : Bytes) : CacheFolder :=
  { f with temporaries := f.temporaries.map fun t => if t.1 = name then (name, data) else t }

/-- Remove a temporary file, if it is still there. -/
def removeTemporary (name : Nat) (f : CacheFolder) : CacheFolder :=
  { f with temporaries := f.temporaries.filter (·.1 ≠ name) }

/-- Make a temporary file the record of a digest. -/
def persist (f : CacheFolder) (name : Nat) (digest : String) : CacheFolder :=
  { f.removeTemporary name with cache := f.cache.put digest (f.temporary name) }

/-- Work while the lock of a digest is held. -/
def withLock (digest : String) (work : Attempt (σ × CacheFolder) ε α) :
    Attempt (σ × CacheFolder) ε α := fun (s, f) =>
  let (lock, m) := (f.inFlight digest).register
  work.ensuring (Prod.map id (leave digest lock)) (s, f.setInFlight digest m)

/-- Work with a new temporary file. -/
def withTemporary (disk : Disk ε) (work : Nat → Attempt (σ × CacheFolder) ε α) :
    Attempt (σ × CacheFolder) ε α := fun (s, f) =>
  match disk.create with
  | .error e => (.error e, (s, f))
  | .ok _ => (work f.fresh).ensuring (Prod.map id (removeTemporary f.fresh)) (s, f.addTemporary)

/-- Put a temporary file in the place of a record. -/
def placeTemporary (disk : Disk ε) (digest : String) (name : Nat) :
    Attempt (σ × CacheFolder) ε Bytes := fun (s, f) =>
  match disk.place with
  | .error e => (.error e, (s, f))
  | .ok _ => (.ok (f.temporary name), (s, f.persist name digest))

/-- Write a temporary file and put it in the place of a record. -/
def makeRecord (disk : Disk ε) (digest : String) (produce : Attempt (σ × Bytes) ε Unit)
    (name : Nat) : Attempt (σ × CacheFolder) ε Bytes := do
  produce.zoom (fun w => (w.1, w.2.temporary name)) fun w p => (p.1, w.2.setTemporary name p.2)
  placeTemporary disk digest name

/-- The record of a digest, or else what `missing` gives. -/
def lookOr (digest : String) (missing : Attempt (σ × CacheFolder) ε Bytes) :
    Attempt (σ × CacheFolder) ε Bytes := fun w =>
  match w.2.cache.find? digest with
  | some data => (.ok data, w)
  | none => missing w

/-- The record of a digest; `produce` writes it if it is missing. -/
def getOrFillAt (disk : Disk ε) (digest : String) (produce : Attempt (σ × Bytes) ε Unit) :
    Attempt (σ × CacheFolder) ε Bytes :=
  lookOr digest <| withLock digest <| lookOr digest <| withTemporary disk <|
    makeRecord disk digest produce

/-- The record of a key; `produce` writes it if it is missing. -/
def getOrFill (disk : Disk ε) (k : CacheKey) (produce : Attempt (σ × Bytes) ε Unit) :
    Attempt (σ × CacheFolder) ε Bytes :=
  getOrFillAt disk k.digest produce

/-- Callers that come to a folder and want one record. -/
def flight (f : CacheFolder) (digest : String) : Flight ε where
  record := f.cache.find? digest
  map := f.inFlight digest

/-- The folder when all of them have gone. -/
def landed (f : CacheFolder) (digest : String) (s : Flight ε) : CacheFolder :=
  { f.setInFlight digest s.map with
    cache := match f.cache.find? digest, s.record with
      | none, some data => f.cache.put digest data
      | _, _ => f.cache }

/-- A cache directory that is opened anew.  What lies in it is still there. -/
def reopened (f : CacheFolder) : CacheFolder := { f with inFlight := fun _ => {} }

end CacheFolder

end ArchiveMount

/-
# `ArchiveMount.Cache.SingleFlight` — callers that want one record at once

A caller looks for the record, registers for it if it is missing, waits for its lock,
looks again, and only then makes the record and puts it in place.  It may be called off
wherever it waits: for the lock, or for what it makes.  The lock goes to those who wait
for it in the order they came.

A `Flight` is the state of any number of such callers; `step?` lets one of them take
its next step, so that a list of steps is one way of running them side by side.
-/
import ArchiveMount.Bytes
import ArchiveMount.Cache.InFlight

namespace ArchiveMount

/-- How a call ends. -/
inductive CallResult (ε : Type)
  /-- The record is there. -/
  | found
  /-- The caller's own attempt to make it failed. -/
  | failed (error : ε)
  | calledOff
  deriving Repr, DecidableEq

/-- Where a caller stands. -/
inductive Caller (ε : Type)
  | arriving
  /-- The first look has found no record. -/
  | missed
  | registered (lock : Nat)
  | waiting (lock : Nat)
  /-- The lock is held; before the second look. -/
  | holding (lock : Nat)
  /-- The record is being made, in a temporary file. -/
  | filling (lock : Nat)
  /-- The temporary file is complete, but not in place. -/
  | filled (lock : Nat) (data : Bytes)
  /-- All is done but for the lock, which is still held. -/
  | finishing (lock : Nat) (result : CallResult ε)
  | leaving (lock : Nat) (result : CallResult ε)
  | withdrawn (lock : Nat) (result : CallResult ε)
  | done (result : CallResult ε)
  deriving Repr, DecidableEq

namespace Caller

variable {ε : Type}

/-- Whether a caller has a temporary file. -/
def hasTemporary : Caller ε → Bool
  | .filling _ | .filled .. => true
  | _ => false

/-- The lock a caller holds. -/
def held? : Caller ε → Option Nat
  | .holding lock | .filling lock | .filled lock _ | .finishing lock _ => some lock
  | _ => none

end Caller

/-- What makes a caller move. -/
inductive Move (ε : Type)
  /-- Its own next step. -/
  | go
  /-- The attempt to make the record ends. -/
  | fillEnds (result : Except ε Bytes)
  | callOff

/-- Any number of callers that want one record. -/
structure Flight (ε : Type) where
  record : Option Bytes := none
  map : InFlight := {}
  /-- Who holds a lock. -/
  holder : Nat → Option Nat := fun _ => none
  /-- Who waits for a lock, first come first. -/
  queue : Nat → List Nat := fun _ => []
  callers : Nat → Caller ε := fun _ => .arriving
  /-- How many attempts to make the record have begun. -/
  fills : Nat := 0

namespace Flight

variable {ε : Type}

/-- Put a caller somewhere else. -/
def become (s : Flight ε) (i : Nat) (c : Caller ε) : Flight ε :=
  { s with callers := assign s.callers i c }

/-- Let a caller move, if it can. -/
def step? (s : Flight ε) (i : Nat) (move : Move ε) : Option (Flight ε) :=
  match s.callers i, move with
  | .arriving, .go => some (s.become i (if s.record.isSome then .done .found else .missed))
  | .missed, .go =>
    let (lock, map) := s.map.register
    some ({ s with map }.become i (.registered lock))
  | .registered lock, .go =>
    some ({ s with queue := assign s.queue lock (s.queue lock ++ [i]) }.become i (.waiting lock))
  | .waiting lock, .go =>
    if s.holder lock = none ∧ (s.queue lock).head? = some i then
      some ({ s with
        holder := assign s.holder lock (some i)
        queue := assign s.queue lock (s.queue lock).tail }.become i (.holding lock))
    else none
  | .waiting lock, .callOff =>
    some ({ s with queue := assign s.queue lock ((s.queue lock).erase i) }.become i
      (.leaving lock .calledOff))
  | .holding lock, .go =>
    if s.record.isSome then some (s.become i (.finishing lock .found))
    else some ({ s with fills := s.fills + 1 }.become i (.filling lock))
  | .filling lock, .fillEnds (.ok data) => some (s.become i (.filled lock data))
  | .filling lock, .fillEnds (.error e) => some (s.become i (.finishing lock (.failed e)))
  | .filling lock, .callOff => some (s.become i (.finishing lock .calledOff))
  | .filled lock data, .go =>
    some ({ s with record := some data }.become i (.finishing lock .found))
  | .finishing lock result, .go =>
    some ({ s with holder := assign s.holder lock none }.become i (.leaving lock result))
  | .leaving lock result, .go =>
    some ({ s with map := s.map.withdraw lock }.become i (.withdrawn lock result))
  | .withdrawn lock result, .go =>
    some ({ s with map := s.map.release lock }.become i (.done result))
  | _, _ => none

/-- Let callers move in the order given. -/
def run? (s : Flight ε) (schedule : List (Nat × Move ε)) : Option (Flight ε) :=
  schedule.foldlM (fun s m => s.step? m.1 m.2) s

end Flight

end ArchiveMount

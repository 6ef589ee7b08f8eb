/-
# `ArchiveMount.Cache.InFlight` — locks for records that are being made

Callers that want one record share a lock, which stands in a map under the record's
digest.  References to locks are counted: the map has one, and so has every caller.
`register` takes one step.  Leaving takes two, with anything in between: `withdraw`
takes the lock off the map if only the map and the caller refer to it, and `release`
gives the caller's reference up.

`Visitors` runs any number of callers through these steps, in any order; in a `Registry` they
want records with digests of their own.
-/
import ArchiveMount.Assign

namespace ArchiveMount

/-- What the map holds under one digest, and the references to every lock. -/
structure InFlight where
  entry : Option Nat := none
  references : Nat → Nat := fun _ => 0
  /-- The next lock that is made. -/
  fresh : Nat := 0

namespace InFlight

/-- Take a reference to the lock in the map; one is made if there is none. -/
def register (m : InFlight) : Nat × InFlight :=
  match m.entry with
  | some lock => (lock, { m with references := assign m.references lock (m.references lock + 1) })
  | none => (m.fresh,
      { entry := some m.fresh
        references := assign m.references m.fresh 2
        fresh := m.fresh + 1 })

/-- Take the lock off the map, if nobody but the map and one caller refers to it. -/
def withdraw (m : InFlight) (lock : Nat) : InFlight :=
  if m.references lock = 2 ∧ m.entry = some lock then
    { m with entry := none, references := assign m.references lock 1 }
  else m

/-- Give a caller's reference up. -/
def release (m : InFlight) (lock : Nat) : InFlight :=
  { m with references := assign m.references lock (m.references lock - 1) }

end InFlight

/-! ## Callers that come and go -/

/-- Where a caller stands. -/
inductive Visit
  | away
  | inside (lock : Nat)
  /-- Withdrawn, but not yet released. -/
  | withdrawn (lock : Nat)
  | left
  deriving Repr, DecidableEq

/-- The lock a caller refers to. -/
def Visit.lock? : Visit → Option Nat
  | .inside lock | .withdrawn lock => some lock
  | .away | .left => none

/-- Any number of callers and the map they share. -/
structure Visitors where
  map : InFlight := {}
  visits : Nat → Visit := fun _ => .away

namespace Visitors

/-- The next step of a caller; one that has left has none. -/
def step? (s : Visitors) (caller : Nat) : Option Visitors :=
  match s.visits caller with
  | .away =>
    let (lock, map) := s.map.register
    some { map, visits := assign s.visits caller (.inside lock) }
  | .inside lock =>
    some { map := s.map.withdraw lock, visits := assign s.visits caller (.withdrawn lock) }
  | .withdrawn lock =>
    some { map := s.map.release lock, visits := assign s.visits caller .left }
  | .left => none

/-- Let callers take a step each, in the order given. -/
def run? (s : Visitors) (schedule : List Nat) : Option Visitors := schedule.foldlM step? s

/-- Every caller that came has left. -/
def Settled (s : Visitors) : Prop := ∀ caller, s.visits caller = .away ∨ s.visits caller = .left

end Visitors

/-! ## All digests -/

/-- What the map holds under every digest, and any number of callers. -/
structure Registry where
  maps : String → InFlight := fun _ => {}
  visits : Nat → Visit := fun _ => .away

namespace Registry

variable (digests : Nat → String)

/-- The next step of a caller, who wants the record with a digest. -/
def step? (r : Registry) (caller : Nat) : Option Registry :=
  let digest := digests caller
  (Visitors.step? ⟨r.maps digest, r.visits⟩ caller).map fun s =>
    { maps := fun other => if other = digest then s.map else r.maps other
      visits := s.visits }

/-- Let callers take a step each, in the order given. -/
def run? (r : Registry) (schedule : List Nat) : Option Registry := schedule.foldlM (step? digests) r

/-- What there is under a digest, and those who want the record with it; the others stay away. -/
def under (r : Registry) (digest : String) : Visitors where
  map := r.maps digest
  visits caller := if digests caller = digest then r.visits caller else .away

end Registry

end ArchiveMount

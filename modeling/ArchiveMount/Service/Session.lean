/-
# `ArchiveMount.Service.Session` — a service and its clients

The index of a service is built from an object store, and clients that learn where it
serves may ask for paths.  A `Session` is one run of a service over a store, with the
answers it gives on the way.
-/
import ArchiveMount.Export.WebDavGet
import ArchiveMount.Service.Lifecycle

namespace ArchiveMount

variable {σ : Type}

/-- Index the archive at a locator, from the store that serves it. -/
def indexFrom (stores : Locator → Except ObjectError (Store σ)) (l : Locator) :
    Attempt (σ × Cache) TreeError (Store σ × Tree) := do
  let store ← Attempt.ofExcept ((stores l).mapError .object)
  let t ← Tree.build store l
  return (store, t)

/-- The same surroundings where the archive is read from stores. -/
def Surroundings.over (s : Surroundings) (stores : Locator → Except ObjectError (Store σ))
    (w : σ × Cache) : Surroundings :=
  { s with
    chooseStore := fun l => (stores l).map fun _ => ()
    index := fun l => some (((indexFrom stores l).run w).1.map fun _ => ()) }

/-- One run of a service. -/
structure Session where
  events : List ServiceEvent
  result : Except ServiceError Unit
  /-- Answers to clients. -/
  answers : List DavAnswer := []
  cache : Cache := {}

namespace Session

/-- Whether anybody has been told where the service is. -/
def served (s : Session) : Bool := s.events.any fun
  | .reported .success .. => s.events.all fun
    | .noted _ => false
    | _ => true
  | _ => false

/-- Answer clients one after the other. -/
def answerAll (store : Store σ) (t : Tree) : List String → σ × Cache → List DavAnswer × Cache
  | [], w => ([], w.2)
  | target :: rest, w =>
    let (a, w) := Dav.get store t target w
    let (answers, c) := answerAll store t rest w
    (a :: answers, c)

/-- Run a service whose clients ask for `targets` once they know where it is. -/
def run (surroundings : Surroundings) (stores : Locator → Except ObjectError (Store σ))
    (w : σ × Cache) (c : ServiceConfig) (targets : List String) : Session :=
  let (events, result) := Service.run surroundings c
  let session : Session := { events, result, cache := w.2 }
  match Locator.ofText c.uri, events.contains (.entered .buildingIndex) with
  | .ok l, true =>
    match (indexFrom stores l).run w with
    | (.ok (store, t), w) =>
      if session.served then
        let (answers, cache) := answerAll store t targets w
        { session with answers, cache }
      else { session with cache := w.2 }
    | (.error _, w) => { session with cache := w.2 }
  | _, _ => session

end Session

end ArchiveMount

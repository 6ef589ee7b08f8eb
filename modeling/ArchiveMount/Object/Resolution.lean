/-
# `ArchiveMount.Object.Resolution` — callers that want routes at once

Each container that has been asked for has a cell.  The first caller for it resolves its
route; others that come meanwhile wait, in the order they came.  If the resolution fails,
or is called off, the next one that waits runs its own; if it succeeds, all who wait have
the route, and nobody resolves again.

A `RouteCell` says what one step of a caller does with the cell of its container.  A
`Resolution` is the state of any number of callers, each of which asks once; `step?` lets
one of them take its next step.
-/
import ArchiveMount.Assign

namespace ArchiveMount

/-- What a caller asks for. -/
inductive RouteRequest
  /-- The route of a container, to be resolved if it has not been. -/
  | resolve (container : String)
  /-- The route of a container if it has been resolved. -/
  | get (container : String)

/-- The container that is asked for. -/
def RouteRequest.container : RouteRequest → String
  | .resolve container | .get container => container

/-- Where a caller stands. -/
inductive RouteCaller (ρ ε : Type)
  | arriving
  /-- The cell of the container has been found, or made. -/
  | entered
  | waiting
  | resolving
  | done (result : Except ε ρ)
  | calledOff
  /-- Wants to know the route only if it has been resolved. -/
  | looking
  | seen (route : Option ρ)

/-- What makes a caller move. -/
inductive RouteMove (ρ ε : Type)
  /-- Its own next step. -/
  | go
  /-- Its resolution ends. -/
  | resolved (result : Except ε ρ)
  | callOff

variable {ρ ε : Type}

/-- Where a caller begins. -/
def RouteRequest.caller : RouteRequest → RouteCaller ρ ε
  | .resolve _ => .arriving
  | .get _ => .looking

/-- What is known about one container. -/
structure RouteCell (ρ : Type) where
  route : Option ρ := none
  /-- Who is resolving the route. -/
  resolver : Option Nat := none
  /-- Who waits, first come first. -/
  queue : List Nat := []
  /-- Who has ever waited, first come first. -/
  arrivals : List Nat := []
  /-- How many resolutions have begun. -/
  runs : Nat := 0

/-- A move of a caller: what becomes of the cell, and of the caller. -/
def RouteCell.step? (cell : RouteCell ρ) (i : Nat) :
    RouteCaller ρ ε → RouteMove ρ ε → Option (RouteCell ρ × RouteCaller ρ ε)
  | .arriving, .go => some (cell, .entered)
  | .entered, .go =>
    match cell.route with
    | some route => some (cell, .done (.ok route))
    | none =>
      some ({ cell with queue := cell.queue ++ [i], arrivals := cell.arrivals ++ [i] }, .waiting)
  | .waiting, .go =>
    match cell.route with
    | some route => some ({ cell with queue := cell.queue.erase i }, .done (.ok route))
    | none =>
      if cell.resolver = none ∧ cell.queue.head? = some i then
        some ({ cell with
          resolver := some i, queue := cell.queue.tail, runs := cell.runs + 1 }, .resolving)
      else none
  | .waiting, .callOff => some ({ cell with queue := cell.queue.erase i }, .calledOff)
  | .resolving, .resolved (.ok route) =>
    some ({ cell with route := some route, resolver := none }, .done (.ok route))
  | .resolving, .resolved (.error e) => some ({ cell with resolver := none }, .done (.error e))
  | .resolving, .callOff => some ({ cell with resolver := none }, .calledOff)
  | .looking, .go => some (cell, .seen cell.route)
  | _, _ => none

/-- Any number of callers, and the containers whose cells have been made. -/
structure Resolution (ρ ε : Type) where
  containers : List String := []
  cells : String → RouteCell ρ := fun _ => {}
  callers : Nat → RouteCaller ρ ε

namespace Resolution

/-- Nobody has asked yet. -/
def start (ρ ε : Type) (requests : Nat → RouteRequest) : Resolution ρ ε :=
  { callers := fun i => (requests i).caller }

/-- Number of containers with a route. -/
def size (s : Resolution ρ ε) : Nat :=
  s.containers.countP fun container => (s.cells container).route.isSome

/-- Who comes for a route makes the cell of its container, if there is none. -/
def make (s : Resolution ρ ε) (i : Nat) (container : String) : List String :=
  match s.callers i with
  | .arriving => if s.containers.contains container then s.containers
      else s.containers ++ [container]
  | _ => s.containers

/-- A caller has moved on, and left the cell of its container so. -/
def put (s : Resolution ρ ε) (i : Nat) (container : String) (cell : RouteCell ρ)
    (caller : RouteCaller ρ ε) : Resolution ρ ε where
  containers := s.make i container
  cells := fun name => if name = container then cell else s.cells name
  callers := assign s.callers i caller

variable (requests : Nat → RouteRequest)

/-- Let a caller move, if it can. -/
def step? (s : Resolution ρ ε) (i : Nat) (move : RouteMove ρ ε) : Option (Resolution ρ ε) :=
  let container := (requests i).container
  ((s.cells container).step? i (s.callers i) move).map fun (cell, caller) =>
    s.put i container cell caller

/-- Let callers move in the order given. -/
def run? (s : Resolution ρ ε) (schedule : List (Nat × RouteMove ρ ε)) :
    Option (Resolution ρ ε) :=
  schedule.foldlM (fun s m => s.step? requests m.1 m.2) s

end Resolution

end ArchiveMount

/-
# `ArchiveMount.Object.Routes` — one route for each container

A `RouteCache` keeps, for each container, the route that was resolved for it.  The
first request resolves it; a failure is not kept, so that the next request tries
again; a success is kept for ever.  Requests for one container that come together wait
for each other in the order they came, which makes a queue of them the same as one
after the other.
-/
import ArchiveMount.Attempt

namespace ArchiveMount

/-- The routes that have been resolved, by container. -/
structure RouteCache (ρ : Type) where
  routes : List (String × ρ) := []

namespace RouteCache

variable {ρ σ ε : Type}

/-- The route of a container, if it has been resolved. -/
def get? (c : RouteCache ρ) (container : String) : Option ρ := c.routes.lookup container

/-- Keep a route. -/
def insert (c : RouteCache ρ) (container : String) (route : ρ) : RouteCache ρ :=
  ⟨c.routes ++ [(container, route)]⟩

/-- Number of containers with a route. -/
def size (c : RouteCache ρ) : Nat := c.routes.length

def isEmpty (c : RouteCache ρ) : Bool := c.size = 0

/-- The route of a container; `resolver` finds it if nobody has asked before. -/
def resolve (container : String) (resolver : Attempt σ ε ρ) : Attempt (σ × RouteCache ρ) ε ρ :=
  fun (s, c) =>
    match c.get? container with
    | some route => (.ok route, (s, c))
    | none =>
      match resolver s with
      | (.ok route, s) => (.ok route, (s, c.insert container route))
      | (.error e, s) => (.error e, (s, c))

/-- What `callers` requests that wait in a queue are answered. -/
def resolveQueue (container : String) (resolver : Attempt σ ε ρ) :
    (callers : Nat) → σ × RouteCache ρ → List (Except ε ρ) × σ × RouteCache ρ
  | 0, s => ([], s)
  | n + 1, s =>
    let (r, s) := resolve container resolver s
    let (rs, s) := resolveQueue container resolver n s
    (r :: rs, s)

theorem get?_insert_self {c : RouteCache ρ} {container : String} (route : ρ)
    (h : c.get? container = none) : (c.insert container route).get? container = some route := by
  have h : c.routes.lookup container = none := h
  simp [insert, get?, List.lookup_append, h]

theorem get?_insert_of_ne {c : RouteCache ρ} {container other : String} (route : ρ)
    (h : other ≠ container) : (c.insert container route).get? other = c.get? other := by
  have hb : (other == container) = false := by simpa using h
  simp only [insert, get?, List.lookup_append, List.lookup_cons, hb, List.lookup_nil]
  cases c.routes.lookup other <;> rfl

end RouteCache

end ArchiveMount

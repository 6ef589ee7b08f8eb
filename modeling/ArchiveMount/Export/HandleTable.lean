/-
# `ArchiveMount.Export.HandleTable` — numbers that stand for paths

Clients know files by numbers, which have to stay valid from one request to the next.
A `HandleTable` gives each path a number of its own when it is first seen.  Beyond its
capacity it forgets the pairs that were used longest ago, except those that a request
still has pinned and the one just given out; a number is never given to another path.
The root has a number for ever.
-/

namespace ArchiveMount

/-- Handles and the paths they stand for. -/
structure HandleTable (α : Type) where
  root : α
  /-- Pairs of handle and path, those used longest ago first.  The one list stands for the map
  from handles to paths and for the map back: a pair enters and leaves both together. -/
  held : List (Nat × α)
  /-- The handle of every pin, once for each, which stands for the number of pins of each. -/
  pins : List Nat
  /-- The next handle to be given out.  It is not bounded, where a machine has a word of 64
  bits: the two agree for fewer than `2 ^ 64 - 2` handles given out. -/
  next : Nat
  capacity : Nat

namespace HandleTable

variable {α : Type} [DecidableEq α]

/-- The handle of the root. -/
def rootHandle : Nat := 1

/-- The least capacity: a directory and one of its entries. -/
def minCapacity : Nat := 2

/-- The capacity of a table for which none is asked. -/
def defaultCapacity : Nat := 100000

/-- A table without handles. -/
def new (root : α) (capacity : Nat) : HandleTable α where
  root := root
  held := []
  pins := []
  next := rootHandle + 1
  capacity := max capacity minCapacity

/-- Number of handles held, the root's not counted. -/
def size (t : HandleTable α) : Nat := t.held.length

def isEmpty (t : HandleTable α) : Bool := t.size = 0

/-! ## Eviction -/

/-- Remove the first `n` entries that may go, or all of them if there are fewer. -/
def dropFirst {β : Type} (mayGo : β → Bool) : (n : Nat) → List β → List β
  | 0, l => l
  | _, [] => []
  | n + 1, x :: l =>
    if mayGo x then dropFirst mayGo n l else x :: dropFirst mayGo (n + 1) l

/-- Shrink to the capacity, sparing pinned handles and `keep`. -/
def evict (t : HandleTable α) (keep : Option Nat) : HandleTable α :=
  let mayGo (e : Nat × α) : Bool := some e.1 ≠ keep && !t.pins.contains e.1
  { t with held := dropFirst mayGo (t.size - t.capacity) t.held }

/-! ## Use -/

/-- Note that a handle has been used. -/
def promote (t : HandleTable α) (handle : Nat) : HandleTable α :=
  { t with held := t.held.filter (·.1 ≠ handle) ++ t.held.filter (·.1 = handle) }

/-- The path a handle stands for, unless it is unknown or was forgotten. -/
def find? (t : HandleTable α) (handle : Nat) : Option α :=
  if handle = rootHandle then some t.root else t.held.lookup handle

/-- The handle of a path, if it has one. -/
def handle? (t : HandleTable α) (path : α) : Option Nat :=
  if path = t.root then some rootHandle
  else (t.held.find? (·.2 = path)).map (·.1)

/-- The handle of a path; one is given out if it has none. -/
def handleFor (t : HandleTable α) (path : α) : Nat × HandleTable α :=
  match t.handle? path with
  | some handle => (handle, t.promote handle)
  | none =>
    let grown := { t with held := t.held ++ [(t.next, path)], next := t.next + 1 }
    (t.next, grown.evict (some t.next))

/-- The path of a handle, which counts as a use. -/
def pathOf (t : HandleTable α) (handle : Nat) : Option α × HandleTable α :=
  (t.find? handle, t.promote handle)

/-! ## Pins -/

/-- Keep a handle from being forgotten.  The root needs no pin. -/
def addPin (t : HandleTable α) (handle : Nat) : HandleTable α :=
  if handle = rootHandle then t else { t with pins := handle :: t.pins }

/-- The handle of a path, pinned. -/
def pinnedHandleFor (t : HandleTable α) (path : α) : Nat × HandleTable α :=
  let (handle, t) := t.handleFor path
  (handle, t.addPin handle)

/-- The path of a handle, which is pinned if it is known. -/
def pin (t : HandleTable α) (handle : Nat) : Option α × HandleTable α :=
  match t.pathOf handle with
  | (some path, t) => (some path, t.addPin handle)
  | (none, t) => (none, t)

/-- Give one pin up.  With the last one of a handle the table may shrink. -/
def unpin (t : HandleTable α) (handle : Nat) : HandleTable α :=
  if t.pins.contains handle then
    let freed := { t with pins := t.pins.erase handle }
    if freed.pins.contains handle then freed else freed.evict none
  else t

end HandleTable

end ArchiveMount

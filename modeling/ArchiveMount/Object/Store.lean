/-
# `ArchiveMount.Object.Store` — access to objects by ranges

A `Store σ` answers two requests, the size of an object and the bytes of a range, and
may change its state `σ` in doing so.  Nothing is promised about the answers: what a
store delivers need not be what was asked for.  `Store.noting` is the same store with
a record of what it has been asked.
-/
import ArchiveMount.Attempt
import ArchiveMount.Bytes
import ArchiveMount.Locator.Basic
import ArchiveMount.Object.Error

namespace ArchiveMount

/-- What a download delivers: chunks, and what cut them short, if anything. -/
structure Body where
  chunks : List Bytes
  failure : Option ObjectError := none

/-- All bytes of a body that is delivered in full. -/
def Body.read (b : Body) : Except ObjectError Bytes :=
  match b.failure with
  | none => .ok b.chunks.flatten
  | some e => .error e

/-- Cut bytes into pieces of `n + 1`, the last one perhaps shorter. -/
def chunksOf (n : Nat) (b : Bytes) : List Bytes :=
  match b with
  | [] => []
  | x :: rest => (x :: rest.take n) :: chunksOf n (rest.drop n)
  termination_by b.length

/-- Access to objects by ranges, over a state. -/
structure Store (σ : Type) where
  sizeOf : Locator → Attempt σ ObjectError Nat
  download : Locator → ByteRange → Attempt σ ObjectError Body

namespace Store

variable {σ : Type}

/-- Fetch a range and collect it. -/
def readRange (store : Store σ) (l : Locator) (range : ByteRange) :
    Attempt σ ObjectError Bytes := do
  let body ← store.download l range
  body.read

/-- The same store over a part of a larger state. -/
def within {τ : Type} (store : Store σ) (part : τ → σ) (put : τ → σ → τ) : Store τ where
  sizeOf l := (store.sizeOf l).zoom part put
  download l range := (store.download l range).zoom part put

/-- One request to a store. -/
inductive Request
  | size
  | download (range : ByteRange)
  deriving Repr, DecidableEq

/-- The same store, with a note of each request, the last one first. -/
def noting (store : Store σ) : Store (σ × List Request) where
  sizeOf l := do
    Attempt.modify fun s => (s.1, .size :: s.2)
    (store.sizeOf l).zoom Prod.fst fun s part => (part, s.2)
  download l range := do
    Attempt.modify fun s => (s.1, .download range :: s.2)
    (store.download l range).zoom Prod.fst fun s part => (part, s.2)

end Store

theorem flatten_chunksOf (n : Nat) (b : Bytes) : (chunksOf n b).flatten = b := by
  fun_induction chunksOf n b with
  | case1 => rfl
  | case2 x rest ih => simp [ih]

end ArchiveMount

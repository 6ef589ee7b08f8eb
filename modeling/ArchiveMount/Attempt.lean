/-
# `ArchiveMount.Attempt` — work that may fail after it has changed something

An `Attempt σ ε α` reads and changes a state and then gives a result or an error.  An
error ends the work but does not undo it: the state is the one reached so far.
`bind_ok` and `bind_error` are the two rules by which a sequence of attempts runs.
-/

namespace ArchiveMount

/-- Work on a state that may fail. -/
def Attempt (σ ε α : Type) : Type := σ → Except ε α × σ

namespace Attempt

variable {σ τ ε ε' α β : Type}

/-- Run from a state: the outcome, and the state reached. -/
def run (x : Attempt σ ε α) (s : σ) : Except ε α × σ := x s

instance : Monad (Attempt σ ε) where
  pure a := fun s => (.ok a, s)
  bind x f := fun s =>
    match x s with
    | (.ok a, s) => f a s
    | (.error e, s) => (.error e, s)

/-- Give a result that is already there. -/
def ofExcept (r : Except ε α) : Attempt σ ε α := fun s => (r, s)

/-- Fail without a change. -/
def fail (e : ε) : Attempt σ ε α := ofExcept (.error e)

instance : MonadLift (Except ε) (Attempt σ ε) where
  monadLift := ofExcept

/-- The state as it is. -/
def get : Attempt σ ε σ := fun s => (.ok s, s)

/-- Change the state. -/
def modify (f : σ → σ) : Attempt σ ε Unit := fun s => (.ok (), f s)

/-- Report errors in other terms. -/
def mapError (f : ε → ε') (x : Attempt σ ε α) : Attempt σ ε' α := fun s =>
  let (r, s) := x s
  (r.mapError f, s)

/-- The outcome as a value; this never fails. -/
def outcome (x : Attempt σ ε α) : Attempt σ ε' (Except ε α) := fun s =>
  let (r, s) := x s
  (.ok r, s)

/-- Work on a part of a larger state. -/
def zoom (part : τ → σ) (put : τ → σ → τ) (x : Attempt σ ε α) : Attempt τ ε α := fun t =>
  let (r, s) := x (part t)
  (r, put t s)

/-- Work on the first of two states. -/
def onFirst (x : Attempt σ ε α) : Attempt (σ × τ) ε α := x.zoom Prod.fst fun w s => (s, w.2)

/-- Work on the second of two states. -/
def onSecond (x : Attempt τ ε α) : Attempt (σ × τ) ε α := x.zoom Prod.snd fun w t => (w.1, t)

/-- Change the state when the work has ended, however it ended. -/
def ensuring (x : Attempt σ ε α) (last : σ → σ) : Attempt σ ε α := fun s =>
  let (r, s) := x s
  (r, last s)

theorem run_pure (a : α) (s : σ) : (pure a : Attempt σ ε α).run s = (.ok a, s) := rfl

theorem bind_ok {x : Attempt σ ε α} {s s' : σ} {a : α} (h : x.run s = (.ok a, s'))
    (f : α → Attempt σ ε β) : (x >>= f).run s = (f a).run s' := by
  show (match x s with | (.ok a, s) => f a s | (.error e, s) => (.error e, s)) = _
  rw [show x s = _ from h]
  rfl

theorem bind_error {x : Attempt σ ε α} {s s' : σ} {e : ε} (h : x.run s = (.error e, s'))
    (f : α → Attempt σ ε β) : (x >>= f).run s = (.error e, s') := by
  show (match x s with | (.ok a, s) => f a s | (.error e, s) => (.error e, s)) = _
  rw [show x s = _ from h]

@[simp] theorem run_ofExcept (r : Except ε α) (s : σ) :
    (ofExcept r : Attempt σ ε α).run s = (r, s) := rfl

end Attempt

end ArchiveMount

/-
# `ArchiveMount.Proofs.Attempt` — attempts over states that stand for each other

`Agree R x y` says that from states related by `R` the attempts `x` and `y` give the same
outcome and reach related states again.  It is closed under everything attempts are made
of, so that an attempt over one state can be studied on a simpler one.  `Keeps ok x` only
says that `x` does not leave the states that are `ok`, and `Gives P x` that its results
satisfy `P`.
-/
import ArchiveMount.Attempt

namespace ArchiveMount.Attempt

variable {σ τ ε ε' α β : Type}

/-! ## Runs -/

/-- A sequence succeeds only if its first part does. -/
theorem exists_of_bind_eq_ok {x : Except ε α} {f : α → Except ε β} {b : β}
    (h : (x >>= f) = .ok b) : ∃ a, x = .ok a ∧ f a = .ok b := by
  cases x with
  | ok a => exact ⟨a, rfl, h⟩
  | error e => cases h

theorem bind_eq_ok_iff {x : Except ε α} {f : α → Except ε β} {b : β} :
    (x >>= f) = .ok b ↔ ∃ a, x = .ok a ∧ f a = .ok b := by
  constructor
  · exact exists_of_bind_eq_ok
  · rintro ⟨a, rfl, h⟩
    exact h

/-- A sequence fails in a way only if one of its parts does. -/
theorem bind_ne_error {x : Except ε α} {f : α → Except ε β} {e : ε} (hx : x ≠ .error e)
    (hf : ∀ a, x = .ok a → f a ≠ .error e) : (x >>= f) ≠ .error e := by
  cases x with
  | ok a => exact hf a rfl
  | error x =>
      intro h
      obtain rfl := Except.error.inj h
      exact hx rfl

@[simp] theorem mapError_ok (f : ε → ε') (a : α) :
    (Except.ok a : Except ε α).mapError f = .ok a := rfl

@[simp] theorem mapError_error (f : ε → ε') (e : ε) :
    (Except.error e : Except ε α).mapError f = .error (f e) := rfl

theorem mapError_eq_ok_iff {f : ε → ε'} {r : Except ε α} {a : α} :
    r.mapError f = .ok a ↔ r = .ok a := by
  cases r <;> simp

theorem toOption_eq_some_iff {r : Except ε α} {a : α} : r.toOption = some a ↔ r = .ok a := by
  cases r <;> simp [Except.toOption]

@[simp] theorem run_fail (e : ε) (s : σ) : (fail e : Attempt σ ε α).run s = (.error e, s) := rfl

@[simp] theorem run_mapError (f : ε → ε') (x : Attempt σ ε α) (s : σ) :
    (x.mapError f).run s = ((x.run s).1.mapError f, (x.run s).2) := rfl

@[simp] theorem run_outcome (x : Attempt σ ε α) (s : σ) :
    (x.outcome : Attempt σ ε' (Except ε α)).run s = (.ok (x.run s).1, (x.run s).2) := rfl

@[simp] theorem run_ensuring (x : Attempt σ ε α) (last : σ → σ) (s : σ) :
    (x.ensuring last).run s = ((x.run s).1, last (x.run s).2) := rfl

@[simp] theorem run_onFirst (x : Attempt σ ε α) (w : σ × τ) :
    (x.onFirst : Attempt (σ × τ) ε α).run w = ((x.run w.1).1, (x.run w.1).2, w.2) := rfl

@[simp] theorem run_onSecond (x : Attempt τ ε α) (w : σ × τ) :
    (x.onSecond : Attempt (σ × τ) ε α).run w = ((x.run w.2).1, w.1, (x.run w.2).2) := rfl

@[simp] theorem run_get (s : σ) : (get : Attempt σ ε σ).run s = (.ok s, s) := rfl

@[simp] theorem run_modify (f : σ → σ) (s : σ) :
    (modify f : Attempt σ ε Unit).run s = (.ok (), f s) := rfl

@[simp] theorem run_liftM (r : Except ε α) (s : σ) :
    (liftM r : Attempt σ ε α).run s = (r, s) := rfl

/-- The one rule for a sequence, whatever its first part gives. -/
theorem run_bind (x : Attempt σ ε α) (f : α → Attempt σ ε β) (s : σ) :
    (x >>= f).run s =
      match (x.run s).1 with
      | .ok a => (f a).run (x.run s).2
      | .error e => (.error e, (x.run s).2) := by
  cases h : x.run s with
  | mk r s' =>
      cases r with
      | ok a => exact bind_ok h f
      | error e => exact bind_error h f

/-- A sequence succeeds if both its parts do, the second one from where the first one ends. -/
theorem fst_run_bind_eq_ok_iff {x : Attempt σ ε α} {f : α → Attempt σ ε β} {s : σ} {b : β} :
    ((x >>= f).run s).1 = .ok b ↔
      ∃ a, (x.run s).1 = .ok a ∧ ((f a).run (x.run s).2).1 = .ok b := by
  rw [run_bind]
  cases (x.run s).1 <;> simp

theorem fst_run_bind_ne_error {x : Attempt σ ε α} {f : α → Attempt σ ε β} {s : σ} {e : ε}
    (hx : (x.run s).1 ≠ .error e) (hf : ∀ a s', ((f a).run s').1 ≠ .error e) :
    ((x >>= f).run s).1 ≠ .error e := by
  rw [run_bind]
  cases h : (x.run s).1 with
  | ok a => exact hf a _
  | error x =>
      intro he
      obtain rfl := Except.error.inj he
      exact hx h

instance : LawfulMonad (Attempt σ ε) := LawfulMonad.mk' _
  (fun x => by
    funext s
    simp only [Functor.map]
    rcases x s with ⟨_ | a, s⟩ <;> rfl)
  (fun _ _ => rfl)
  (fun x f g => by
    funext s
    simp only [bind]
    rcases x s with ⟨_ | a, s⟩ <;> rfl)

/-! ## Agreement -/

/-- From related states both give the same, and the states they reach are related. -/
def Agree (R : σ → τ → Prop) (x : Attempt σ ε α) (y : Attempt τ ε α) : Prop :=
  ∀ s t, R s t → (x.run s).1 = (y.run t).1 ∧ R (x.run s).2 (y.run t).2

variable {R : σ → τ → Prop} {x : Attempt σ ε α} {y : Attempt τ ε α}

theorem Agree.ofExcept (r : Except ε α) :
    Agree R (Attempt.ofExcept r : Attempt σ ε α) (Attempt.ofExcept r : Attempt τ ε α) :=
  fun _ _ h => ⟨rfl, h⟩

theorem Agree.pure (a : α) : Agree R (Pure.pure a : Attempt σ ε α) (Pure.pure a : Attempt τ ε α) :=
  fun _ _ h => ⟨rfl, h⟩

theorem Agree.fail (e : ε) :
    Agree R (Attempt.fail e : Attempt σ ε α) (Attempt.fail e : Attempt τ ε α) :=
  fun _ _ h => ⟨rfl, h⟩

theorem Agree.mapError (h : Agree R x y) (f : ε → ε') : Agree R (x.mapError f) (y.mapError f) := by
  intro s t hst
  obtain ⟨hr, hs⟩ := h s t hst
  exact ⟨congrArg (·.mapError f) hr, hs⟩

theorem Agree.bind {f : α → Attempt σ ε β} {g : α → Attempt τ ε β} (h : Agree R x y)
    (hf : ∀ a, Agree R (f a) (g a)) : Agree R (x >>= f) (y >>= g) := by
  intro s t hst
  obtain ⟨hr, hs⟩ := h s t hst
  rw [run_bind, run_bind, ← hr]
  cases (x.run s).1 with
  | ok a => exact hf a _ _ hs
  | error e => exact ⟨rfl, hs⟩

/-- The same first state, and second ones that are related. -/
def Beside {γ δ : Type} (Q : γ → δ → Prop) (w : σ × γ) (v : σ × δ) : Prop :=
  w.1 = v.1 ∧ Q w.2 v.2

theorem Agree.onFirst {γ δ : Type} (Q : γ → δ → Prop) (x : Attempt σ ε α) :
    Agree (Beside Q) (x.onFirst : Attempt (σ × γ) ε α) (x.onFirst : Attempt (σ × δ) ε α) := by
  rintro ⟨s, c⟩ ⟨-, d⟩ ⟨rfl, h⟩
  exact ⟨rfl, rfl, h⟩

/-! ## What a run keeps -/

/-- The work never leaves the states that are `ok`, whatever it gives. -/
def Keeps (ok : σ → Prop) (x : Attempt σ ε α) : Prop := ∀ s, ok s → ok (x.run s).2

variable {ok : σ → Prop}

theorem Keeps.ofExcept (r : Except ε α) : Keeps ok (Attempt.ofExcept r : Attempt σ ε α) :=
  fun _ h => h

theorem Keeps.pure (a : α) : Keeps ok (Pure.pure a : Attempt σ ε α) := fun _ h => h

theorem Keeps.fail (e : ε) : Keeps ok (Attempt.fail e : Attempt σ ε α) := fun _ h => h

theorem Keeps.mapError (h : Keeps ok x) (f : ε → ε') : Keeps ok (x.mapError f) := h

theorem Keeps.bind {f : α → Attempt σ ε β} (h : Keeps ok x) (hf : ∀ a, Keeps ok (f a)) :
    Keeps ok (x >>= f) := by
  intro s hs
  rw [run_bind]
  cases (x.run s).1 with
  | ok a => exact hf a _ (h s hs)
  | error e => exact h s hs

/-! ## Doing the same -/

/-- From states that are `ok` both do the same. -/
def Same (ok : σ → Prop) (x y : Attempt σ ε α) : Prop := ∀ s, ok s → x.run s = y.run s

theorem Same.rfl {x : Attempt σ ε α} : Same ok x x := fun _ _ => Eq.refl _

/-- What the first part gives, from a state that is `ok`, may be used in the second one. -/
theorem Same.bind {x y : Attempt σ ε α} {f g : α → Attempt σ ε β} (h : Same ok x y)
    (hk : Keeps ok y) (hf : ∀ s a, ok s → (y.run s).1 = .ok a → Same ok (f a) (g a)) :
    Same ok (x >>= f) (y >>= g) := by
  intro s hs
  rw [run_bind, run_bind, h s hs]
  cases ha : (y.run s).1 with
  | ok a => exact hf s a hs ha _ (hk s hs)
  | error e => rfl

theorem mapError_bind (g : ε → ε') (x : Attempt σ ε α) (f : α → Attempt σ ε β) :
    (x >>= f).mapError g = x.mapError g >>= fun a => (f a).mapError g := by
  funext s
  show ((x >>= f).mapError g).run s = (x.mapError g >>= fun a => (f a).mapError g).run s
  rw [run_bind, run_mapError, run_mapError, run_bind]
  cases (x.run s).1 <;> rfl

/-! ## What a run gives -/

/-- Whatever the work gives when it succeeds satisfies `P`. -/
def Gives (P : α → Prop) (x : Attempt σ ε α) : Prop := ∀ s a, (x.run s).1 = .ok a → P a

theorem Gives.pure {P : α → Prop} {a : α} (h : P a) : Gives P (Pure.pure a : Attempt σ ε α) := by
  intro s b hb
  obtain rfl := Except.ok.inj hb
  exact h

theorem Gives.ofExcept {P : α → Prop} {r : Except ε α} (h : ∀ a, r = .ok a → P a) :
    Gives P (Attempt.ofExcept r : Attempt σ ε α) := by
  intro _ a ha
  exact h a ha

theorem Gives.fail (P : α → Prop) (e : ε) : Gives P (Attempt.fail e : Attempt σ ε α) := by
  intro _ a ha
  cases ha

theorem Gives.mapError {P : α → Prop} (h : Gives P x) (f : ε → ε') : Gives P (x.mapError f) := by
  intro s a ha
  rw [run_mapError] at ha
  cases hr : (x.run s).1 with
  | ok b =>
      rw [hr] at ha
      obtain rfl := Except.ok.inj ha
      exact h s b hr
  | error e =>
      rw [hr] at ha
      cases ha

/-- What the first part gives may be used in the second one. -/
theorem Gives.bind_of {Q : α → Prop} {P : β → Prop} {f : α → Attempt σ ε β} (hx : Gives Q x)
    (hf : ∀ a, Q a → Gives P (f a)) : Gives P (x >>= f) := by
  intro s b hb
  rw [run_bind] at hb
  cases h : (x.run s).1 with
  | ok a =>
      rw [h] at hb
      exact hf a (hx s a h) _ b hb
  | error e =>
      rw [h] at hb
      cases hb

theorem Gives.bind {P : β → Prop} {f : α → Attempt σ ε β} (hf : ∀ a, Gives P (f a)) :
    Gives P (x >>= f) :=
  .bind_of (fun _ _ _ => trivial) fun a (_ : True) => hf a

end ArchiveMount.Attempt

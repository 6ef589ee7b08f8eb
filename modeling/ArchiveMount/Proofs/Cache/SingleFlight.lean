/-
# `ArchiveMount.Proofs.Cache.SingleFlight` — one attempt at a time

`Step` lists all that a step of a flight can do, and `Sound` is the invariant of its runs.
What carries it is that a caller's lock stays in the map until the caller withdraws
(`Sound.shared`): so all who hold a lock hold the same one, and the second look is not
out of date when the attempt begins.
-/
import ArchiveMount.Cache.SingleFlight
import ArchiveMount.Proofs.Cache.InFlight

namespace ArchiveMount

namespace Caller

variable {ε : Type}

/-- The lock of a caller that has not withdrawn. -/
def inside? : Caller ε → Option Nat
  | .registered lock | .waiting lock | .holding lock | .filling lock | .filled lock _
  | .finishing lock _ | .leaving lock _ => some lock
  | .arriving | .missed | .withdrawn .. | .done _ => none

/-- The lock a caller refers to. -/
def lock? : Caller ε → Option Nat
  | .withdrawn lock _ => some lock
  | c => c.inside?

/-- Whether a caller holds a lock and has no result yet. -/
def atTurn : Caller ε → Bool
  | .holding _ | .filling _ | .filled .. => true
  | _ => false

/-- How far a call has come. -/
def stage : Caller ε → Nat
  | .arriving => 0
  | .missed => 1
  | .registered _ => 2
  | .waiting _ => 3
  | .holding _ => 4
  | .filling _ => 5
  | .filled .. => 6
  | .finishing .. => 7
  | .leaving .. => 8
  | .withdrawn .. => 9
  | .done _ => 10

/-- How the call ends, once that is clear. -/
def result? : Caller ε → Option (CallResult ε)
  | .finishing _ result | .leaving _ result | .withdrawn _ result | .done result => some result
  | _ => none

theorem stage_le (c : Caller ε) : c.stage ≤ 10 := by
  cases c <;> exact Nat.le_of_ble_eq_true rfl

theorem lock?_of_inside? {c : Caller ε} {lock : Nat} (h : c.inside? = some lock) :
    c.lock? = some lock := by
  cases c <;> first | exact h | cases h

theorem inside?_of_held? {c : Caller ε} {lock : Nat} (h : c.held? = some lock) :
    c.inside? = some lock := by
  cases c <;> first | exact h | cases h

/-- Who makes the record holds a lock. -/
theorem held?_of_hasTemporary {c : Caller ε} (h : c.hasTemporary = true) :
    ∃ lock, c.held? = some lock := by
  cases c with
  | filling lock | filled lock data => exact ⟨lock, rfl⟩
  | arriving | missed | registered | waiting | holding | finishing | leaving | withdrawn | done =>
      cases h

end Caller

namespace Flight

variable {ε : Type}

/-! ## All that a step can do -/

/-- The steps of a caller, one constructor for each. -/
inductive Step (s : Flight ε) (i : Nat) : Move ε → Flight ε → Prop
  | hit (hi : s.callers i = .arriving) (hr : s.record.isSome = true) :
      Step s i .go (s.become i (.done .found))
  | miss (hi : s.callers i = .arriving) : Step s i .go (s.become i .missed)
  | register (hi : s.callers i = .missed) :
      Step s i .go ({ s with map := s.map.register.2 }.become i (.registered s.map.register.1))
  | enqueue {lock : Nat} (hi : s.callers i = .registered lock) :
      Step s i .go ({ s with queue := assign s.queue lock (s.queue lock ++ [i]) }.become i
        (.waiting lock))
  | acquire {lock : Nat} (hi : s.callers i = .waiting lock) (hfree : s.holder lock = none)
      (hfirst : (s.queue lock).head? = some i) :
      Step s i .go ({ s with
        holder := assign s.holder lock (some i)
        queue := assign s.queue lock (s.queue lock).tail }.become i (.holding lock))
  | giveUp {lock : Nat} (hi : s.callers i = .waiting lock) :
      Step s i .callOff ({ s with queue := assign s.queue lock ((s.queue lock).erase i) }.become i
        (.leaving lock .calledOff))
  | hitLate {lock : Nat} (hi : s.callers i = .holding lock) (hr : s.record.isSome = true) :
      Step s i .go (s.become i (.finishing lock .found))
  | attempt {lock : Nat} (hi : s.callers i = .holding lock) (hr : s.record = none) :
      Step s i .go ({ s with fills := s.fills + 1 }.become i (.filling lock))
  | fill {lock : Nat} {data : Bytes} (hi : s.callers i = .filling lock) :
      Step s i (.fillEnds (.ok data)) (s.become i (.filled lock data))
  | fail {lock : Nat} {e : ε} (hi : s.callers i = .filling lock) :
      Step s i (.fillEnds (.error e)) (s.become i (.finishing lock (.failed e)))
  | abandon {lock : Nat} (hi : s.callers i = .filling lock) :
      Step s i .callOff (s.become i (.finishing lock .calledOff))
  | put {lock : Nat} {data : Bytes} (hi : s.callers i = .filled lock data) :
      Step s i .go ({ s with record := some data }.become i (.finishing lock .found))
  | unlock {lock : Nat} {result : CallResult ε} (hi : s.callers i = .finishing lock result) :
      Step s i .go ({ s with holder := assign s.holder lock none }.become i (.leaving lock result))
  | withdraw {lock : Nat} {result : CallResult ε} (hi : s.callers i = .leaving lock result) :
      Step s i .go ({ s with map := s.map.withdraw lock }.become i (.withdrawn lock result))
  | release {lock : Nat} {result : CallResult ε} (hi : s.callers i = .withdrawn lock result) :
      Step s i .go ({ s with map := s.map.release lock }.become i (.done result))

variable {s s' : Flight ε} {i : Nat} {move : Move ε}

theorem step_of_step? (h : s.step? i move = some s') : Step s i move s' := by
  unfold step? at h
  split at h
  case h_1 hi =>
    obtain rfl := Option.some.inj h
    split
    · exact .hit hi ‹_›
    · exact .miss hi
  case h_2 hi =>
    obtain rfl := Option.some.inj h
    exact .register hi
  case h_3 hi =>
    obtain rfl := Option.some.inj h
    exact .enqueue hi
  case h_4 hi =>
    split at h
    · rename_i hfirst
      obtain rfl := Option.some.inj h
      exact .acquire hi hfirst.1 hfirst.2
    · cases h
  case h_5 hi =>
    obtain rfl := Option.some.inj h
    exact .giveUp hi
  case h_6 hi =>
    split at h
    · obtain rfl := Option.some.inj h
      exact .hitLate hi ‹_›
    · obtain rfl := Option.some.inj h
      rename_i hr
      exact .attempt hi (by simpa using hr)
  case h_7 hi =>
    obtain rfl := Option.some.inj h
    exact .fill hi
  case h_8 hi =>
    obtain rfl := Option.some.inj h
    exact .fail hi
  case h_9 hi =>
    obtain rfl := Option.some.inj h
    exact .abandon hi
  case h_10 hi =>
    obtain rfl := Option.some.inj h
    exact .put hi
  case h_11 hi =>
    obtain rfl := Option.some.inj h
    exact .unlock hi
  case h_12 hi =>
    obtain rfl := Option.some.inj h
    exact .withdraw hi
  case h_13 hi =>
    obtain rfl := Option.some.inj h
    exact .release hi
  case h_14 => cases h

/-! ## Others stay where they are -/

section Become

variable (s : Flight ε) (i : Nat) (c : Caller ε)

@[simp] theorem callers_become_self : (s.become i c).callers i = c := assign_self _ _ _

theorem callers_become_of_ne {j : Nat} (h : j ≠ i) : (s.become i c).callers j = s.callers j :=
  assign_of_ne _ _ h

theorem refers_become :
    (fun j => ((s.become i c).callers j).lock?) = assign (fun j => (s.callers j).lock?) i c.lock? :=
  comp_assign _ _ _ _

/-- A view of the callers that does not change. -/
theorem view_become {α : Type} {s : Flight ε} {i : Nat} {c : Caller ε} (view : Caller ε → α)
    (h : view c = view (s.callers i)) (j : Nat) :
    view ((s.become i c).callers j) = view (s.callers j) := by
  by_cases hj : j = i
  · rw [hj, callers_become_self, h]
  · rw [callers_become_of_ne _ _ _ hj]

end Become

theorem callers_of_ne (h : Step s i move s') {j : Nat} (hj : j ≠ i) :
    s'.callers j = s.callers j := by
  cases h with
  | hit | miss | register | enqueue | acquire | giveUp | hitLate | attempt | fill | fail | abandon
  | put | unlock | withdraw | release => exact callers_become_of_ne _ _ _ hj

/-! ## The invariant -/

/-- Locks and their map are in order, and the record is there if it has to be. -/
structure Sound (s : Flight ε) : Prop where
  counts : s.map.Counts fun i => (s.callers i).lock?
  /-- Who has not withdrawn refers to the lock in the map. -/
  shared : ∀ i lock, (s.callers i).inside? = some lock → s.map.entry = some lock
  holder : ∀ i lock, (s.callers i).held? = some lock ↔ s.holder lock = some i
  queued : ∀ i lock, i ∈ s.queue lock ↔ s.callers i = .waiting lock
  nodup : ∀ lock, (s.queue lock).Nodup
  /-- What is there is not made again. -/
  missing : ∀ i, (s.callers i).hasTemporary = true → s.record = none
  found : ∀ i, (s.callers i).result? = some .found → s.record.isSome = true

/-- Callers may find a map that others have left. -/
theorem sound_of_counts {map : InFlight} (hmap : map.Counts fun _ => none)
    (record : Option Bytes) : Sound ({ record, map } : Flight ε) where
  counts := hmap
  shared := fun _ _ h => nomatch h
  holder := fun _ _ => ⟨fun h => (nomatch h), fun h => (nomatch h)⟩
  queued := fun _ _ => ⟨fun h => (nomatch h), fun h => (nomatch h)⟩
  nodup := fun _ => List.nodup_nil
  missing := fun _ h => nomatch h
  found := fun _ h => nomatch h

theorem sound_start (record : Option Bytes) : Sound ({ record } : Flight ε) :=
  sound_of_counts InFlight.counts_empty record

namespace Sound

/-- All who hold a lock are one and the same. -/
theorem holder_unique (hs : s.Sound) {i j l l' : Nat} (hi : (s.callers i).held? = some l)
    (hj : (s.callers j).held? = some l') : i = j := by
  have hl := hs.shared i l (Caller.inside?_of_held? hi)
  have hl' := hs.shared j l' (Caller.inside?_of_held? hj)
  obtain rfl := Option.some.inj (hl.symm.trans hl')
  exact Option.some.inj (((hs.holder i l).1 hi).symm.trans ((hs.holder j l).1 hj))

/-! ### The map and the references -/

theorem counts_step (hs : s.Sound) (h : Step s i move s') :
    s'.map.Counts fun i => (s'.callers i).lock? := by
  cases h with
  | register hi =>
      rw [refers_become]
      exact hs.counts.register (by rw [hi]; rfl)
  | @withdraw lock result hi =>
      rw [funext (view_become Caller.lock? (by rw [hi]; rfl))]
      exact hs.counts.withdraw lock
  | @release lock result hi =>
      rw [refers_become]
      exact hs.counts.release (by rw [hi]; rfl)
  | hit hi | miss hi | enqueue hi | acquire hi | giveUp hi | hitLate hi | attempt hi | fill hi
  | fail hi | abandon hi | put hi | unlock hi =>
      rw [funext (view_become Caller.lock? (by rw [hi]; rfl))]
      exact hs.counts

/-- The lock in the map is still there for all others after one of them withdraws. -/
theorem shared_step (hs : s.Sound) (h : Step s i move s') :
    ∀ j lock, (s'.callers j).inside? = some lock → s'.map.entry = some lock := by
  have hshared := hs.shared
  cases h with
  | register hi =>
      have hentry := s.map.entry_register
      have hsame : ∀ lock, s.map.entry = some lock → s.map.register.1 = lock :=
        fun lock h => by rw [InFlight.register_of_some h]
      simp only [become, assign]
      grind [Caller.inside?]
  | @withdraw lock result hi =>
      intro j l hj
      by_cases hji : j = i
      · rw [hji, callers_become_self] at hj
        cases hj
      · rw [callers_become_of_ne _ _ _ hji] at hj
        have hl := hshared j l hj
        obtain rfl : lock = l :=
          Option.some.inj ((hshared i lock (by rw [hi]; rfl)).symm.trans hl)
        refine (hs.counts.entry_withdraw (Ne.symm hji) ?_ (Caller.lock?_of_inside? hj)).trans hl
        rw [hi]
        rfl
  | @release lock result hi =>
      intro j l hj
      rw [view_become Caller.inside? (by rw [hi]; rfl)] at hj
      exact hshared j l hj
  | hit hi | miss hi | enqueue hi | acquire hi | giveUp hi | hitLate hi | attempt hi | fill hi
  | fail hi | abandon hi | put hi | unlock hi =>
      simp only [become, assign]
      grind [Caller.inside?]

/-! ### The lock -/

theorem holder_step (hs : s.Sound) (h : Step s i move s') :
    ∀ j lock, (s'.callers j).held? = some lock ↔ s'.holder lock = some j := by
  have hholder := hs.holder
  cases h with
  | acquire hi | unlock hi =>
      simp only [become, assign]
      grind [Caller.held?]
  | hit hi | miss hi | register hi | enqueue hi | giveUp hi | hitLate hi | attempt hi | fill hi
  | fail hi | abandon hi | put hi | withdraw hi | release hi =>
      intro j lock
      rw [view_become Caller.held? (by rw [hi]; rfl)]
      exact hholder j lock

theorem queued_step (hs : s.Sound) (h : Step s i move s') :
    ∀ j lock, j ∈ s'.queue lock ↔ s'.callers j = .waiting lock := by
  have hqueued := hs.queued
  have hnodup := hs.nodup
  cases h with
  | @acquire lock hi hfree hfirst =>
      obtain ⟨rest, hrest⟩ := List.head?_eq_some_iff.1 hfirst
      have hlock := hnodup lock
      simp only [become, assign]
      grind
  | enqueue hi | giveUp hi | hit hi | miss hi | register hi | hitLate hi | attempt hi | fill hi
  | fail hi | abandon hi | put hi | unlock hi | withdraw hi | release hi =>
      simp only [become, assign]
      grind

theorem nodup_step (hs : s.Sound) (h : Step s i move s') : ∀ lock, (s'.queue lock).Nodup := by
  have hqueued := hs.queued
  have hnodup := hs.nodup
  cases h with
  | enqueue hi =>
      simp only [become, assign]
      grind [List.nodup_append]
  | acquire hi =>
      simp only [become, assign]
      grind [List.Nodup.tail]
  | giveUp hi =>
      simp only [become, assign]
      grind [List.Nodup.erase]
  | hit hi | miss hi | register hi | hitLate hi | attempt hi | fill hi | fail hi | abandon hi
  | put hi | unlock hi | withdraw hi | release hi => exact hnodup

/-! ### The record -/

theorem missing_step (hs : s.Sound) (h : Step s i move s') :
    ∀ j, (s'.callers j).hasTemporary = true → s'.record = none := by
  have hmissing := hs.missing
  cases h with
  | @put lock data hi =>
      -- nobody else is at it, for the lock is held
      intro j hj
      by_cases hji : j = i
      · rw [hji, callers_become_self] at hj
        cases hj
      · rw [callers_become_of_ne _ _ _ hji] at hj
        obtain ⟨l, hl⟩ := Caller.held?_of_hasTemporary hj
        exact absurd (hs.holder_unique hl (by rw [hi]; rfl)) hji
  | attempt hi hr => exact fun _ _ => hr
  | hit hi | miss hi | register hi | enqueue hi | acquire hi | giveUp hi | hitLate hi | fill hi
  | fail hi | abandon hi | unlock hi | withdraw hi | release hi =>
      simp only [become, assign]
      grind [Caller.hasTemporary]

theorem found_step (hs : s.Sound) (h : Step s i move s') :
    ∀ j, (s'.callers j).result? = some .found → s'.record.isSome = true := by
  have hfound := hs.found
  cases h <;> simp only [become, assign] <;> grind [Caller.result?]

theorem step (hs : s.Sound) (h : Step s i move s') : s'.Sound where
  counts := hs.counts_step h
  shared := hs.shared_step h
  holder := hs.holder_step h
  queued := hs.queued_step h
  nodup := hs.nodup_step h
  missing := hs.missing_step h
  found := hs.found_step h

/-- A record that is in place stays as it is, and nobody begins to make it. -/
theorem record_step (hs : s.Sound) (h : Step s i move s') {data : Bytes}
    (hr : s.record = some data) : s'.record = some data ∧ s'.fills = s.fills := by
  cases h with
  | attempt hi hnone => exact nomatch hnone.symm.trans hr
  | put hi => exact nomatch (hs.missing i (by rw [hi]; rfl)).symm.trans hr
  | hit hi | miss hi | register hi | enqueue hi | acquire hi | giveUp hi | hitLate hi | fill hi
  | fail hi | abandon hi | unlock hi | withdraw hi | release hi => exact ⟨hr, rfl⟩

end Sound

/-! ## Calls come to an end -/

/-- Where a result comes from. -/
theorem result_step (h : Step s i move s') {result : CallResult ε}
    (hr : (s'.callers i).result? = some result) :
    (s.callers i).result? = some result ∨ result = .found ∨
      (∃ e, move = .fillEnds (.error e) ∧ result = .failed e) ∨
      (move = .callOff ∧ result = .calledOff) := by
  cases h with
  | hit hi | hitLate hi | put hi =>
      rw [callers_become_self] at hr
      exact .inr (.inl (Option.some.inj hr).symm)
  | @fail lock e hi =>
      rw [callers_become_self] at hr
      exact .inr (.inr (.inl ⟨e, rfl, (Option.some.inj hr).symm⟩))
  | giveUp hi | abandon hi =>
      rw [callers_become_self] at hr
      exact .inr (.inr (.inr ⟨rfl, (Option.some.inj hr).symm⟩))
  | unlock hi | withdraw hi | release hi =>
      rw [callers_become_self] at hr
      rw [hi]
      exact .inl hr
  | miss hi | register hi | enqueue hi | acquire hi | attempt hi | fill hi =>
      rw [callers_become_self] at hr
      cases hr

/-- A result stays. -/
theorem result?_of_result? (h : Step s i move s') {j : Nat} {result : CallResult ε}
    (hr : (s.callers j).result? = some result) : (s'.callers j).result? = some result := by
  by_cases hj : j = i
  · subst hj
    cases h with
    | unlock hi | withdraw hi | release hi =>
        rw [callers_become_self]
        rw [hi] at hr
        exact hr
    | hit hi | miss hi | register hi | enqueue hi | acquire hi | giveUp hi | hitLate hi
    | attempt hi | fill hi | fail hi | abandon hi | put hi =>
        rw [hi] at hr
        cases hr
  · rw [callers_of_ne h hj]
    exact hr

/-- Who holds a lock has waited for it. -/
theorem held?_step (h : Step s i move s') {j lock : Nat} (hj : (s'.callers j).held? = some lock) :
    (s.callers j).held? = some lock ∨ s.callers j = .waiting lock := by
  by_cases hji : j = i
  · subst hji
    cases h with
    | acquire hi =>
        rw [callers_become_self] at hj
        obtain rfl := Option.some.inj hj
        exact .inr hi
    | hitLate hi | attempt hi | fill hi | fail hi | abandon hi | put hi =>
        rw [callers_become_self] at hj
        rw [hi]
        exact .inl hj
    | hit hi | miss hi | register hi | enqueue hi | giveUp hi | unlock hi | withdraw hi
    | release hi =>
        rw [callers_become_self] at hj
        cases hj
  · rw [callers_of_ne h hji] at hj
    exact .inl hj

/-- No caller moves more often than its stage says. -/
theorem stage_step (h : Step s i move s') : (s.callers i).stage < (s'.callers i).stage := by
  cases h with
  | hit hi | miss hi | register hi | enqueue hi | acquire hi | giveUp hi | hitLate hi | attempt hi
  | fill hi | fail hi | abandon hi | put hi | unlock hi | withdraw hi | release hi =>
      rw [callers_become_self, hi]
      simp only [Caller.stage, Nat.reduceLT]

/-- Whether a caller can move, and not only be called off. -/
def CanMove (s : Flight ε) (i : Nat) : Prop :=
  ∃ move, move ≠ .callOff ∧ (s.step? i move).isSome = true

/-- Who holds the lock can move. -/
theorem canMove_of_held? {lock : Nat} (h : (s.callers i).held? = some lock) : s.CanMove i := by
  cases hi : s.callers i with
  | holding lock =>
      refine ⟨.go, nofun, ?_⟩
      simp only [step?, hi]
      split <;> rfl
  | filled | finishing =>
      refine ⟨.go, nofun, ?_⟩
      simp only [step?, hi, Option.isSome_some]
  | filling lock =>
      refine ⟨.fillEnds (.ok []), nofun, ?_⟩
      simp only [step?, hi, Option.isSome_some]
  | arriving | missed | registered | waiting | leaving | withdrawn | done =>
      rw [hi] at h
      cases h

/-- As long as a call goes on, somebody whose call goes on can move. -/
theorem Sound.exists_canMove (hs : s.Sound) (harr : s.callers i ≠ .arriving)
    (hdone : ∀ result, s.callers i ≠ .done result) :
    ∃ j, s.callers j ≠ .arriving ∧ s.CanMove j := by
  cases hi : s.callers i with
  | arriving => exact absurd hi harr
  | done result => exact absurd hi (hdone result)
  | missed | registered | leaving | withdrawn =>
      refine ⟨i, harr, .go, nofun, ?_⟩
      simp only [step?, hi, Option.isSome_some]
  | holding lock | filling lock | filled lock data | finishing lock result =>
      exact ⟨i, harr, canMove_of_held? (show (s.callers i).held? = some lock by rw [hi]; rfl)⟩
  | waiting lock =>
      cases hfree : s.holder lock with
      | some j =>
          have hj := (hs.holder j lock).2 hfree
          refine ⟨j, fun harr => ?_, canMove_of_held? hj⟩
          rw [harr] at hj
          cases hj
      | none =>
          -- the first in the queue
          obtain ⟨j, rest, hq⟩ := List.exists_cons_of_ne_nil
            (List.ne_nil_of_mem ((hs.queued i lock).2 hi))
          have hj := (hs.queued j lock).1 (by rw [hq]; exact List.mem_cons_self)
          refine ⟨j, by rw [hj]; nofun, .go, nofun, ?_⟩
          simp only [step?, hj, hfree, hq, List.head?_cons, and_self, if_true, Option.isSome_some]

end Flight

end ArchiveMount

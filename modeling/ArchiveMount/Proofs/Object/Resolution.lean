/-
# `ArchiveMount.Proofs.Object.Resolution` — one resolver at a time, and one success

`Step` lists all that a step of a caller can do, and `Sound` is the invariant of the runs.
What a run has been is its schedule: `outcomes` are the ends of the resolvers of one
container in it, and `successes` the routes they have found, which are the route that the
cell holds and no other (`History.successes`).  A container sees the moves of its own callers only
(`run?_restrict`).
-/
import ArchiveMount.Object.Resolution
import Mathlib.Data.List.Induction
import Mathlib.Data.List.Nodup

namespace ArchiveMount

variable {ρ ε : Type}

/-- Whether a caller has come to a cell and is still there. -/
def RouteCaller.inside : RouteCaller ρ ε → Bool
  | .entered | .waiting | .resolving => true
  | _ => false

namespace Resolution

/-! ## All that a step can do -/

section Put

variable (s : Resolution ρ ε) (i : Nat) (c : String) (cell : RouteCell ρ) (caller : RouteCaller ρ ε)

@[simp] theorem cells_put_self : (s.put i c cell caller).cells c = cell := if_pos rfl

theorem cells_put_of_ne {other : String} (h : other ≠ c) :
    (s.put i c cell caller).cells other = s.cells other := if_neg h

@[simp] theorem callers_put_self : (s.put i c cell caller).callers i = caller := assign_self _ _ _

theorem callers_put_of_ne {j : Nat} (h : j ≠ i) :
    (s.put i c cell caller).callers j = s.callers j := assign_of_ne _ _ h

/-- A cell that has been made stays. -/
theorem mem_make {name : String} (h : name ∈ s.containers) : name ∈ s.make i c := by
  unfold make
  split
  · split
    · exact h
    · exact List.mem_append_left _ h
  · exact h

/-- Who arrives finds the cell, or makes it. -/
theorem mem_make_of_arriving (hi : s.callers i = .arriving) : c ∈ s.make i c := by
  simp only [make, hi]
  split
  · exact List.contains_iff_mem.1 ‹_›
  · exact List.mem_append_right _ (List.mem_singleton_self c)

theorem nodup_make (h : s.containers.Nodup) : (s.make i c).Nodup := by
  unfold make
  split
  · split
    · exact h
    · rename_i hnew
      rw [List.contains_iff_mem] at hnew
      refine List.nodup_append.2 ⟨h, List.nodup_singleton c, ?_⟩
      rintro a ha b hb rfl
      exact hnew (List.mem_singleton.1 hb ▸ ha)
  · exact h

end Put

/-- The steps of a caller that asks for `c`, one constructor for each. -/
inductive Step (s : Resolution ρ ε) (i : Nat) (c : String) : RouteMove ρ ε → Resolution ρ ε → Prop
  | enter (hi : s.callers i = .arriving) : Step s i c .go (s.put i c (s.cells c) .entered)
  | hit {r : ρ} (hi : s.callers i = .entered) (hr : (s.cells c).route = some r) :
      Step s i c .go (s.put i c (s.cells c) (.done (.ok r)))
  | enqueue (hi : s.callers i = .entered) (hr : (s.cells c).route = none) :
      Step s i c .go (s.put i c { s.cells c with
        queue := (s.cells c).queue ++ [i], arrivals := (s.cells c).arrivals ++ [i] } .waiting)
  | hitLate {r : ρ} (hi : s.callers i = .waiting) (hr : (s.cells c).route = some r) :
      Step s i c .go (s.put i c { s.cells c with queue := (s.cells c).queue.erase i }
        (.done (.ok r)))
  | begin (hi : s.callers i = .waiting) (hr : (s.cells c).route = none)
      (hfree : (s.cells c).resolver = none) (hfirst : (s.cells c).queue.head? = some i) :
      Step s i c .go (s.put i c { s.cells c with
        resolver := some i, queue := (s.cells c).queue.tail, runs := (s.cells c).runs + 1 }
        .resolving)
  | giveUp (hi : s.callers i = .waiting) :
      Step s i c .callOff (s.put i c { s.cells c with queue := (s.cells c).queue.erase i }
        .calledOff)
  | succeed {r : ρ} (hi : s.callers i = .resolving) :
      Step s i c (.resolved (.ok r)) (s.put i c { s.cells c with route := some r, resolver := none }
        (.done (.ok r)))
  | fail {e : ε} (hi : s.callers i = .resolving) :
      Step s i c (.resolved (.error e)) (s.put i c { s.cells c with resolver := none }
        (.done (.error e)))
  | abandon (hi : s.callers i = .resolving) :
      Step s i c .callOff (s.put i c { s.cells c with resolver := none } .calledOff)
  | look (hi : s.callers i = .looking) :
      Step s i c .go (s.put i c (s.cells c) (.seen (s.cells c).route))

variable {requests : Nat → RouteRequest} {s s' : Resolution ρ ε} {i : Nat} {c : String}
  {move : RouteMove ρ ε}

theorem step_of_step? (h : s.step? requests i move = some s') :
    Step s i (requests i).container move s' := by
  obtain ⟨⟨cell, caller⟩, hcell, rfl⟩ := Option.map_eq_some_iff.1 h
  unfold RouteCell.step? at hcell
  split at hcell
  case h_1 hi =>
    cases hcell
    exact .enter hi
  case h_2 hi =>
    split at hcell <;> cases hcell
    · exact .hit hi ‹_›
    · exact .enqueue hi ‹_›
  case h_3 hi =>
    split at hcell
    · cases hcell
      exact .hitLate hi ‹_›
    · split at hcell
      · rename_i hr hfirst
        cases hcell
        exact .begin hi hr hfirst.1 hfirst.2
      · cases hcell
  case h_4 hi =>
    cases hcell
    exact .giveUp hi
  case h_5 hi =>
    cases hcell
    exact .succeed hi
  case h_6 hi =>
    cases hcell
    exact .fail hi
  case h_7 hi =>
    cases hcell
    exact .abandon hi
  case h_8 hi =>
    cases hcell
    exact .look hi
  case h_9 => cases hcell

/-- Other callers stay where they are. -/
theorem callers_of_ne (h : Step s i c move s') {j : Nat} (hj : j ≠ i) :
    s'.callers j = s.callers j := by
  cases h <;> exact callers_put_of_ne _ _ _ _ _ hj

/-- Other cells stay as they are. -/
theorem cells_of_ne (h : Step s i c move s') {other : String} (ho : other ≠ c) :
    s'.cells other = s.cells other := by
  cases h <;> exact cells_put_of_ne _ _ _ _ _ ho

theorem containers_step (h : Step s i c move s') : s'.containers = s.make i c := by
  cases h <;> rfl

/-- A failure changes no route. -/
theorem route_of_fail {e : ε} (h : Step s i c (.resolved (.error e)) s') (name : String) :
    (s'.cells name).route = (s.cells name).route := by
  by_cases hname : name = c
  · subst hname
    cases h with
    | fail hi => rw [cells_put_self]
  · rw [cells_of_ne h hname]

/-! ## The invariant -/

/-- Cells and callers are in order. -/
structure Sound (requests : Nat → RouteRequest) (s : Resolution ρ ε) : Prop where
  resolver : ∀ i c, (requests i).container = c ∧ s.callers i = .resolving ↔
    (s.cells c).resolver = some i
  queued : ∀ i c, i ∈ (s.cells c).queue ↔ (requests i).container = c ∧ s.callers i = .waiting
  nodup : ∀ c, (s.cells c).queue.Nodup
  /-- Nobody resolves what has been resolved. -/
  settled : ∀ c, (s.cells c).route.isSome = true → (s.cells c).resolver = none
  answered : ∀ i r, s.callers i = .done (.ok r) ∨ s.callers i = .seen (some r) →
    (s.cells (requests i).container).route = some r
  inside : ∀ i, (s.callers i).inside = true → (requests i).container ∈ s.containers
  made : ∀ c, (s.cells c).route.isSome = true → c ∈ s.containers
  once : s.containers.Nodup

theorem start_callers (i : Nat) : (start ρ ε requests).callers i = .arriving ∨
    (start ρ ε requests).callers i = .looking := by
  show (requests i).caller = _ ∨ (requests i).caller = _
  cases requests i with
  | resolve => exact .inl rfl
  | get => exact .inr rfl

theorem sound_start (requests : Nat → RouteRequest) : Sound requests (start ρ ε requests) := by
  constructor
  case resolver | queued =>
    intro i c
    rcases start_callers i with h | h <;> rw [h] <;> simp [start]
  case nodup => exact fun _ => List.nodup_nil
  case settled => exact fun _ _ => rfl
  case answered | inside =>
    intro i
    rcases start_callers i with h | h <;> rw [h] <;> simp [RouteCaller.inside]
  case made => exact fun _ h => nomatch h
  case once => exact List.nodup_nil

namespace Sound

variable (hs : Sound requests s)

include hs

theorem resolver_unique {i j : Nat} (hc : (requests i).container = (requests j).container)
    (hi : s.callers i = .resolving) (hj : s.callers j = .resolving) : i = j :=
  Option.some.inj (((hs.resolver i _).1 ⟨hc, hi⟩).symm.trans ((hs.resolver j _).1 ⟨rfl, hj⟩))

/-- While a route is resolved there is none. -/
theorem route_of_resolving (hi : s.callers i = .resolving) :
    (s.cells (requests i).container).route = none := by
  cases hr : (s.cells (requests i).container).route with
  | none => rfl
  | some r =>
      have hnone := hs.settled (requests i).container (by rw [hr]; rfl)
      exact nomatch hnone.symm.trans ((hs.resolver i _).1 ⟨rfl, hi⟩)

theorem resolver_step (h : Step s i (requests i).container move s') :
    ∀ j c, (requests j).container = c ∧ s'.callers j = .resolving ↔
      (s'.cells c).resolver = some j := by
  have hresolver := hs.resolver
  cases h <;> simp only [put, assign] <;> grind

theorem queued_step (h : Step s i (requests i).container move s') :
    ∀ j c, j ∈ (s'.cells c).queue ↔ (requests j).container = c ∧ s'.callers j = .waiting := by
  have hqueued := hs.queued
  have hnodup := hs.nodup (requests i).container
  cases h with
  | begin hi hr hfree hfirst =>
      obtain ⟨rest, hrest⟩ := List.head?_eq_some_iff.1 hfirst
      simp only [put, assign]
      grind
  | enter | hit | enqueue | hitLate | giveUp | succeed | fail | abandon | look =>
      simp only [put, assign]
      grind

theorem nodup_step (h : Step s i (requests i).container move s') :
    ∀ c, (s'.cells c).queue.Nodup := by
  have hqueued := hs.queued
  have hnodup := hs.nodup
  cases h with
  | enqueue hi =>
      simp only [put]
      grind [List.nodup_append]
  | begin hi =>
      simp only [put]
      grind [List.Nodup.tail]
  | enter | hit | hitLate | giveUp | succeed | fail | abandon | look =>
      simp only [put]
      grind [List.Nodup.erase]

theorem settled_step (h : Step s i (requests i).container move s') :
    ∀ c, (s'.cells c).route.isSome = true → (s'.cells c).resolver = none := by
  have hsettled := hs.settled
  cases h <;> simp only [put] <;> grind

/-- A route that is there stays, and nobody begins to resolve it. -/
theorem route_step (h : Step s i (requests i).container move s') {r : ρ}
    (hr : (s.cells c).route = some r) :
    (s'.cells c).route = some r ∧ (s'.cells c).runs = (s.cells c).runs := by
  by_cases hc : c = (requests i).container
  · subst hc
    cases h with
    | begin _ hnone => exact nomatch hnone.symm.trans hr
    | succeed hi => exact nomatch (hs.route_of_resolving hi).symm.trans hr
    | enter | hit | enqueue | hitLate | giveUp | fail | abandon | look =>
        rw [cells_put_self]
        exact ⟨hr, rfl⟩
  · rw [cells_of_ne h hc]
    exact ⟨hr, rfl⟩

theorem answered_step (h : Step s i (requests i).container move s') :
    ∀ j r, s'.callers j = .done (.ok r) ∨ s'.callers j = .seen (some r) →
      (s'.cells (requests j).container).route = some r := by
  intro j r hj
  by_cases hji : j = i
  · subst hji
    cases h <;> rw [callers_put_self] at hj <;> rw [cells_put_self] <;> grind
  · rw [callers_of_ne h hji] at hj
    exact (hs.route_step h (hs.answered j r hj)).1

theorem inside_step (h : Step s i (requests i).container move s') :
    ∀ j, (s'.callers j).inside = true → (requests j).container ∈ s'.containers := by
  intro j hj
  rw [containers_step h]
  by_cases hji : j = i
  · subst hji
    have hinside := hs.inside j
    cases h with
    | enter hi => exact s.mem_make_of_arriving j _ hi
    | enqueue hi | begin hi => exact s.mem_make j _ (hinside (by rw [hi]; rfl))
    | hit | hitLate | giveUp | succeed | fail | abandon | look =>
        rw [callers_put_self] at hj
        cases hj
  · rw [callers_of_ne h hji] at hj
    exact s.mem_make i _ (hs.inside j hj)

theorem made_step (h : Step s i (requests i).container move s') :
    ∀ c, (s'.cells c).route.isSome = true → c ∈ s'.containers := by
  intro c hc
  rw [containers_step h]
  refine s.mem_make i _ ?_
  by_cases hci : c = (requests i).container
  · subst hci
    have hmade := hs.made (requests i).container
    cases h with
    | succeed hi => exact hs.inside i (by rw [hi]; rfl)
    | enter | hit | enqueue | hitLate | begin | giveUp | fail | abandon | look =>
        rw [cells_put_self] at hc
        exact hmade hc
  · rw [cells_of_ne h hci] at hc
    exact hs.made c hc

theorem step (h : Step s i (requests i).container move s') : Sound requests s' where
  resolver := hs.resolver_step h
  queued := hs.queued_step h
  nodup := hs.nodup_step h
  settled := hs.settled_step h
  answered := hs.answered_step h
  inside := hs.inside_step h
  made := hs.made_step h
  once := containers_step h ▸ s.nodup_make i _ hs.once

end Sound

/-! ## Runs -/

section Run

variable {schedule later : List (Nat × RouteMove ρ ε)} {m : Nat × RouteMove ρ ε}

theorem run?_append (s : Resolution ρ ε) (schedule later : List (Nat × RouteMove ρ ε)) :
    s.run? requests (schedule ++ later) =
      (s.run? requests schedule).bind fun a => a.run? requests later :=
  List.foldlM_append ..

/-- What holds at the start and is kept by every move, in view of the moves before it, holds at
the end of a run. -/
theorem run?_induction {P : List (Nat × RouteMove ρ ε) → Resolution ρ ε → Prop}
    (h : s.run? requests schedule = some s') (hs : P [] s)
    (hstep : ∀ before a m b, P before a → m ∈ schedule → a.step? requests m.1 m.2 = some b →
      P (before ++ [m]) b) : P schedule s' := by
  induction schedule using List.reverseRecOn generalizing s' with
  | nil =>
      obtain rfl := Option.some.inj h
      exact hs
  | append_singleton before m ih =>
      rw [run?_append] at h
      obtain ⟨a, ha, hm⟩ := Option.bind_eq_some_iff.1 h
      obtain ⟨b, hb, hend⟩ := Option.bind_eq_some_iff.1 hm
      obtain rfl := Option.some.inj hend
      refine hstep before a m b (ih ha fun before' a m' b hP hm' => ?_) (by simp) hb
      exact hstep before' a m' b hP (List.mem_append_left _ hm')

theorem sound_run (h : s.run? requests schedule = some s') (hs : Sound requests s) :
    Sound requests s' :=
  run?_induction (P := fun _ a => Sound requests a) h hs
    fun _ _ _ _ ha _ hb => ha.step (step_of_step? hb)

/-- A route stays, and nobody begins to resolve it again. -/
theorem route_run (h : s.run? requests schedule = some s') (hs : Sound requests s) {r : ρ}
    (hr : (s.cells c).route = some r) :
    (s'.cells c).route = some r ∧ (s'.cells c).runs = (s.cells c).runs := by
  refine (run?_induction (P := fun _ a => Sound requests a ∧ (a.cells c).route = some r ∧
    (a.cells c).runs = (s.cells c).runs) h ⟨hs, hr, rfl⟩ ?_).2
  rintro _ a m b ⟨ha, hra, hruns⟩ - hb
  obtain ⟨hrb, hrunsb⟩ := ha.route_step (step_of_step? hb) hra
  exact ⟨ha.step (step_of_step? hb), hrb, hrunsb.trans hruns⟩

end Run

/-! ## The history of a container -/

section History

variable (requests : Nat → RouteRequest) (c : String)

/-- How a move ends a resolver of `c`: who ran it, and what it gave. -/
def outcome? (m : Nat × RouteMove ρ ε) : Option (Nat × Except ε ρ) :=
  match m.2 with
  | .resolved result => if (requests m.1).container = c then some (m.1, result) else none
  | _ => none

/-- How the resolvers of `c` have ended, first to last. -/
def outcomes (schedule : List (Nat × RouteMove ρ ε)) : List (Nat × Except ε ρ) :=
  schedule.filterMap (outcome? requests c)

/-- The routes that resolvers of `c` have found, first to last. -/
def successes (schedule : List (Nat × RouteMove ρ ε)) : List ρ :=
  (outcomes requests c schedule).filterMap fun x => x.2.toOption

variable {requests c}

theorem outcomes_concat (schedule : List (Nat × RouteMove ρ ε)) (m : Nat × RouteMove ρ ε) :
    outcomes requests c (schedule ++ [m]) =
      outcomes requests c schedule ++ (outcome? requests c m).toList := by
  rw [outcomes, List.filterMap_append, ← outcomes]
  cases h : outcome? requests c m <;> simp [h]

theorem successes_concat (schedule : List (Nat × RouteMove ρ ε)) (m : Nat × RouteMove ρ ε) :
    successes requests c (schedule ++ [m]) = successes requests c schedule ++
      ((outcome? requests c m).bind fun x => x.2.toOption).toList := by
  rw [successes, outcomes_concat, List.filterMap_append, ← successes]
  cases h : outcome? requests c m with
  | none => rfl
  | some x => cases hx : x.2.toOption <;> simp [hx]

/-- What the schedule says of the outcomes is what cells and callers show. -/
structure History (requests : Nat → RouteRequest) (schedule : List (Nat × RouteMove ρ ε))
    (s : Resolution ρ ε) : Prop where
  /-- There is one success at most, and it is the route. -/
  successes : ∀ c, successes requests c schedule = (s.cells c).route.toList
  failed : ∀ i e, s.callers i = .done (.error e) → (i, .resolved (.error e)) ∈ schedule

theorem history_start (requests : Nat → RouteRequest) :
    History requests [] (start ρ ε requests) where
  successes := fun _ => rfl
  failed := by
    intro i e hi
    rcases start_callers i with h | h <;> cases h.symm.trans hi

variable {schedule : List (Nat × RouteMove ρ ε)} {s s' : Resolution ρ ε} {i : Nat}
  {move : RouteMove ρ ε}

/-- A route is there from the success of a resolver on. -/
theorem route_step_eq (hs : Sound requests s) (h : Step s i (requests i).container move s') :
    (s'.cells c).route.toList = (s.cells c).route.toList ++
      ((outcome? requests c (i, move)).bind fun x => x.2.toOption).toList := by
  by_cases hc : (requests i).container = c
  · subst hc
    cases h with
    | succeed hi =>
        rw [cells_put_self, hs.route_of_resolving hi]
        simp [outcome?, Except.toOption]
    | enter | hit | enqueue | hitLate | begin | giveUp | fail | abandon | look =>
        rw [cells_put_self]
        simp [outcome?, Except.toOption]
  · rw [cells_of_ne h (Ne.symm hc)]
    have hnone : outcome? requests c (i, move) = none := by
      cases move <;> simp [outcome?, hc]
    simp [hnone]

theorem History.step (hh : History requests schedule s) (hs : Sound requests s)
    (h : Step s i (requests i).container move s') :
    History requests (schedule ++ [(i, move)]) s' where
  successes := by
    intro c
    rw [successes_concat, hh.successes, route_step_eq hs h]
  failed := by
    intro j e hj
    by_cases hji : j = i
    · subst hji
      cases h with
      | fail =>
          rw [callers_put_self] at hj
          cases hj
          exact List.mem_append_right _ (List.mem_singleton_self _)
      | enter | hit | enqueue | hitLate | begin | giveUp | succeed | abandon | look =>
          rw [callers_put_self] at hj
          cases hj
    · rw [callers_of_ne h hji] at hj
      exact List.mem_append_left _ (hh.failed j e hj)

theorem history_run (h : (start ρ ε requests).run? requests schedule = some s) :
    Sound requests s ∧ History requests schedule s := by
  refine run?_induction (P := fun before a => Sound requests a ∧ History requests before a) h
    ⟨sound_start requests, history_start requests⟩ ?_
  rintro before a ⟨i, move⟩ b ⟨hs, hh⟩ - hb
  exact ⟨hs.step (step_of_step? hb), hh.step hs (step_of_step? hb)⟩

/-- The containers with a route, each once. -/
theorem exists_resolved (hs : Sound requests s) (hh : History requests schedule s) :
    ∃ resolved : List String, resolved.Nodup ∧
      (∀ c, c ∈ resolved ↔ successes requests c schedule ≠ []) ∧ s.size = resolved.length := by
  refine ⟨s.containers.filter fun c => (s.cells c).route.isSome, hs.once.filter _, ?_,
    List.countP_eq_length_filter⟩
  intro c
  rw [hh.successes, List.mem_filter]
  constructor
  · rintro ⟨-, hroute⟩ hnil
    cases hr : (s.cells c).route with
    | none => rw [hr] at hroute; cases hroute
    | some r => rw [hr] at hnil; cases hnil
  · intro hne
    cases hr : (s.cells c).route with
    | none => rw [hr] at hne; exact absurd rfl hne
    | some r => exact ⟨hs.made c (by rw [hr]; rfl), rfl⟩

end History

/-! ## Containers by themselves -/

section Alike

variable {t t' : Resolution ρ ε} {schedule : List (Nat × RouteMove ρ ε)}

/-- For `c` and those who ask for it, the two are the same. -/
def Alike (requests : Nat → RouteRequest) (c : String) (s t : Resolution ρ ε) : Prop :=
  s.cells c = t.cells c ∧ ∀ i, (requests i).container = c → s.callers i = t.callers i

/-- What a caller can do depends on the cell of its container and on nothing else. -/
theorem Alike.step (ha : Alike requests (requests i).container s t)
    (h : s.step? requests i move = some s') :
    ∃ t', t.step? requests i move = some t' ∧ Alike requests (requests i).container s' t' := by
  obtain ⟨hcell, hcallers⟩ := ha
  obtain ⟨⟨cell, caller⟩, hm, rfl⟩ := Option.map_eq_some_iff.1 h
  rw [hcell, hcallers i rfl] at hm
  refine ⟨t.put i (requests i).container cell caller, by rw [step?, hm]; rfl, ?_, ?_⟩
  · rw [cells_put_self, cells_put_self]
  · intro j hj
    by_cases hji : j = i
    · rw [hji, callers_put_self, callers_put_self]
    · rw [callers_put_of_ne _ _ _ _ _ hji, callers_put_of_ne _ _ _ _ _ hji]
      exact hcallers j hj

theorem Alike.step_of_ne (ha : Alike requests c s t) (hc : (requests i).container ≠ c)
    (h : Step s i (requests i).container move s') : Alike requests c s' t := by
  obtain ⟨hcell, hcallers⟩ := ha
  refine ⟨(cells_of_ne h (Ne.symm hc)).trans hcell, ?_⟩
  intro j hj
  rw [callers_of_ne h (by rintro rfl; exact hc hj)]
  exact hcallers j hj

/-- Without the moves of those who ask for other containers a run comes to the same for `c`. -/
theorem run?_restrict (c : String) (h : s.run? requests schedule = some s') :
    ∃ t', s.run? requests (schedule.filter fun m => (requests m.1).container = c) = some t' ∧
      Alike requests c s' t' := by
  refine run?_induction (P := fun before a => ∃ t',
    s.run? requests (before.filter fun m => (requests m.1).container = c) = some t' ∧
      Alike requests c a t') h ⟨s, rfl, rfl, fun _ _ => rfl⟩ ?_
  rintro before a ⟨i, move⟩ b ⟨t', hrun, ha⟩ - hb
  rw [List.filter_append, run?_append, hrun]
  by_cases hc : (requests i).container = c
  · subst hc
    obtain ⟨t'', ht, ha'⟩ := ha.step hb
    rw [List.filter_cons_of_pos (by simp)]
    exact ⟨t'', by simp [run?, ht], ha'⟩
  · rw [List.filter_cons_of_neg (by simpa using hc)]
    exact ⟨t', rfl, ha.step_of_ne hc (step_of_step? hb)⟩

end Alike

end Resolution

end ArchiveMount

/-
# `ArchiveMount.Proofs.Cache.FlightLog` — the history of a flight

A `Log` keeps, along a run, who joined a queue and how the attempts to make the record
ended.  Writing this down changes nothing (`Log.map_flight_run?`), and what every move
keeps holds at the end of a run (`Log.run?_induction`).
-/
import ArchiveMount.Proofs.Cache.SingleFlight

namespace ArchiveMount

namespace Flight

variable {ε : Type}

/-- A flight and its history, each list in the order in which things came about. -/
structure Log (ε : Type) where
  flight : Flight ε
  /-- Who joined a queue. -/
  arrivals : List Nat := []
  /-- Whose attempt to make the record ended, and how. -/
  ends : List (Nat × Except ε Bytes) := []

namespace Log

def start (ε : Type) (record : Option Bytes) : Log ε := { flight := { record } }

/-- What is written down when a caller has moved. -/
def note (o : Log ε) (i : Nat) (move : Move ε) (flight : Flight ε) : Log ε where
  flight
  arrivals := match o.flight.callers i with
    | .registered _ => o.arrivals ++ [i]
    | _ => o.arrivals
  ends := match move with
    | .fillEnds result => o.ends ++ [(i, result)]
    | _ => o.ends

/-- Let a caller move, if it can. -/
def step? (o : Log ε) (i : Nat) (move : Move ε) : Option (Log ε) :=
  (o.flight.step? i move).map (o.note i move)

/-- Let callers move in the order given. -/
def run? (o : Log ε) (schedule : List (Nat × Move ε)) : Option (Log ε) :=
  schedule.foldlM (fun o m => o.step? m.1 m.2) o

variable {o o' : Log ε} {i : Nat} {move : Move ε} {schedule : List (Nat × Move ε)}

theorem step?_eq_some (h : o.step? i move = some o') :
    Step o.flight i move o'.flight ∧ o' = o.note i move o'.flight := by
  obtain ⟨s', hs', rfl⟩ := Option.map_eq_some_iff.1 h
  exact ⟨step_of_step? hs', rfl⟩

/-- Writing things down changes nothing. -/
theorem map_flight_run? (o : Log ε) (schedule : List (Nat × Move ε)) :
    (o.run? schedule).map flight = o.flight.run? schedule := by
  induction schedule generalizing o with
  | nil => rfl
  | cons m schedule ih =>
      show ((o.step? m.1 m.2).bind (run? · schedule)).map flight =
        (o.flight.step? m.1 m.2).bind (Flight.run? · schedule)
      cases h : o.flight.step? m.1 m.2 with
      | none => rw [step?, h]; rfl
      | some s' =>
          rw [step?, h]
          exact ih (o.note m.1 m.2 s')

/-- What every move of a schedule keeps holds at the end. -/
theorem run?_induction {P : Log ε → Prop} (h : o.run? schedule = some o') (ho : P o)
    (hstep : ∀ m ∈ schedule, ∀ a b : Log ε, P a → a.step? m.1 m.2 = some b → P b) : P o' := by
  induction schedule generalizing o with
  | nil =>
      obtain rfl := Option.some.inj h
      exact ho
  | cons m schedule ih =>
      obtain ⟨a, ha, hrun⟩ := Option.bind_eq_some_iff.1 h
      exact ih hrun (hstep m List.mem_cons_self o a ho ha)
        fun m' hm' => hstep m' (List.mem_cons_of_mem _ hm')

theorem sound_run (h : o.run? schedule = some o') (hs : o.flight.Sound) : o'.flight.Sound :=
  run?_induction (P := fun a => a.flight.Sound) h hs
    fun _ _ _ _ ha hb => ha.step (step?_eq_some hb).1

/-- The moves of a caller are no more than the stages of a call. -/
theorem moves_run (h : o.run? schedule = some o') (i : Nat) :
    (o.flight.callers i).stage + (schedule.filter (·.1 = i)).length ≤
      (o'.flight.callers i).stage := by
  induction schedule generalizing o with
  | nil =>
      obtain rfl := Option.some.inj h
      exact Nat.le_refl _
  | cons m schedule ih =>
      obtain ⟨a, ha, hrun⟩ := Option.bind_eq_some_iff.1 h
      have hstep := (step?_eq_some ha).1
      have hle := ih hrun
      by_cases hm : m.1 = i
      · have hlt := stage_step hstep
        rw [List.filter_cons_of_pos (by simpa using hm), List.length_cons]
        rw [hm] at hlt
        omega
      · rw [callers_of_ne hstep (Ne.symm hm)] at hle
        rw [List.filter_cons_of_neg (by simpa using hm)]
        exact hle

/-- A record that is in place stays, and no attempt begins after it. -/
theorem record_run (h : o.run? schedule = some o') (hs : o.flight.Sound) {data : Bytes}
    (hr : o.flight.record = some data) :
    o'.flight.record = some data ∧ o'.flight.fills = o.flight.fills := by
  refine (run?_induction (P := fun a => a.flight.Sound ∧ a.flight.record = some data ∧
    a.flight.fills = o.flight.fills) h ⟨hs, hr, rfl⟩ ?_).2
  rintro _ - a b ⟨ha, hra, hfa⟩ hb
  have hstep := (step?_eq_some hb).1
  obtain ⟨hrb, hfb⟩ := ha.record_step hstep hra
  exact ⟨ha.step hstep, hrb, hfb.trans hfa⟩

/-! ## Results -/

/-- Errors are those of own attempts, and who is called off has been called off. -/
structure Accounted (o : Log ε) (schedule : List (Nat × Move ε)) : Prop where
  failed : ∀ i e, (o.flight.callers i).result? = some (.failed e) →
    (i, .fillEnds (.error e)) ∈ schedule
  calledOff : ∀ i, (o.flight.callers i).result? = some .calledOff → (i, .callOff) ∈ schedule

theorem accounted_step (hacc : o.Accounted schedule) (hm : (i, move) ∈ schedule)
    (h : o.step? i move = some o') : o'.Accounted schedule := by
  have hstep := (step?_eq_some h).1
  refine ⟨fun j e hj => ?_, fun j hj => ?_⟩
  · by_cases hji : j = i
    · subst hji
      rcases result_step hstep hj with hold | hnew | ⟨e', rfl, hnew⟩ | ⟨-, hnew⟩
      · exact hacc.failed j e hold
      · cases hnew
      · obtain rfl := CallResult.failed.inj hnew
        exact hm
      · cases hnew
    · rw [callers_of_ne hstep hji] at hj
      exact hacc.failed j e hj
  · by_cases hji : j = i
    · subst hji
      rcases result_step hstep hj with hold | hnew | ⟨e', -, hnew⟩ | ⟨rfl, -⟩
      · exact hacc.calledOff j hold
      · cases hnew
      · cases hnew
      · exact hm
    · rw [callers_of_ne hstep hji] at hj
      exact hacc.calledOff j hj

theorem accounted_run (h : o.run? schedule = some o') (hacc : o.Accounted schedule) :
    o'.Accounted schedule :=
  run?_induction (P := fun a => a.Accounted schedule) h hacc
    fun _ hm _ _ ha hb => accounted_step ha hm hb

/-! ## Who has joined the queue -/

/-- Everybody joins once. -/
structure Joined (o : Log ε) : Prop where
  nodup : o.arrivals.Nodup
  waited : ∀ i ∈ o.arrivals, 3 ≤ (o.flight.callers i).stage

theorem joined_step (hj : o.Joined) (h : o.step? i move = some o') : o'.Joined := by
  obtain ⟨hstep, hnote⟩ := step?_eq_some h
  have hstage : ∀ j, (o.flight.callers j).stage ≤ (o'.flight.callers j).stage := fun j => by
    by_cases hji : j = i
    · rw [hji]
      exact Nat.le_of_lt (stage_step hstep)
    · rw [callers_of_ne hstep hji]
  have hold : ∀ j ∈ o.arrivals, 3 ≤ (o'.flight.callers j).stage := fun j hj' =>
    Nat.le_trans (hj.waited j hj') (hstage j)
  rw [hnote]
  unfold note
  split
  · rename_i lock hi
    have hlt := stage_step hstep
    rw [hi] at hlt
    refine ⟨?_, fun j hj' => ?_⟩
    · refine List.nodup_append.2 ⟨hj.nodup, List.nodup_singleton i, ?_⟩
      rintro j hj' k hk rfl
      rw [List.mem_singleton.1 hk] at hj'
      have hle := hj.waited i hj'
      rw [hi] at hle
      exact absurd hle (Nat.not_succ_le_self 2)
    · rcases List.mem_append.1 hj' with hj' | hj'
      · exact hold j hj'
      · rw [List.mem_singleton.1 hj']
        exact hlt
  · exact ⟨hj.nodup, hold⟩

theorem joined_run (h : o.run? schedule = some o') (hj : o.Joined) : o'.Joined :=
  run?_induction (P := Joined) h hj fun _ _ _ _ ha hb => joined_step ha hb

end Log

end Flight

end ArchiveMount

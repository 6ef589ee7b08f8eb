/-
# `ArchiveMount.Proofs.Cache.InTurn` — what the callers of a flight get

Without call-offs the callers get the lock in the order in which they joined the queue.
`Phase` says how far they have come:

    failed …                    nobody has the lock, or who has it has a result
    failed …, one at it         one has the lock, and no result yet
    failed …, one, later …      the record is there, and all that come find it

`InTurn` is kept by every move (`InTurn.step`), so what each caller gets can be read off
the phase in which the calls are over (`InTurn.served`).
-/
import ArchiveMount.Proofs.Cache.FlightLog

namespace ArchiveMount

namespace Flight

variable {ε : Type}

/-! ## The queue -/

/-- The callers that wait, first come first: all queues but one are empty. -/
structure Waiting (s : Flight ε) (line : List Nat) : Prop where
  none_else : ∀ lock, s.queue lock = [] ∨ s.queue lock = line
  somewhere : ∃ lock, s.queue lock = line

namespace Waiting

variable {s : Flight ε} {line : List Nat} {i lock : Nat}

theorem queue_eq (hw : s.Waiting line) (hs : s.Sound)
    (hi : (s.callers i).inside? = some lock) : s.queue lock = line := by
  obtain ⟨lock', hline⟩ := hw.somewhere
  cases line with
  | nil => rcases hw.none_else lock with h | h <;> exact h
  | cons j rest =>
      -- the first of them refers to the lock in the map too
      have hj := (hs.queued j lock').1 (by rw [hline]; exact List.mem_cons_self)
      have hentry := hs.shared j lock' (by rw [hj]; rfl)
      obtain rfl := Option.some.inj (hentry.symm.trans (hs.shared i lock hi))
      exact hline

theorem queue_of_ne (hs : s.Sound) (hi : (s.callers i).inside? = some lock) {other : Nat}
    (hne : other ≠ lock) : s.queue other = [] := by
  refine List.eq_nil_iff_forall_not_mem.2 fun j hj => hne ?_
  have hentry := hs.shared j other (by rw [(hs.queued j other).1 hj]; rfl)
  exact Option.some.inj (hentry.symm.trans (hs.shared i lock hi))

/-- Only the queue of the lock in the map can change. -/
theorem assign (hs : s.Sound) (hi : (s.callers i).inside? = some lock) {s' : Flight ε}
    (hq : s'.queue = ArchiveMount.assign s.queue lock line) : s'.Waiting line := by
  refine ⟨fun other => ?_, lock, by rw [hq, assign_self]⟩
  by_cases hne : other = lock
  · rw [hne, hq, assign_self]
    exact .inr rfl
  · rw [hq, assign_of_ne _ _ hne, queue_of_ne hs hi hne]
    exact .inl rfl

end Waiting

/-! ## The phases of a flight -/

namespace Log

variable {o o' : Log ε} {i : Nat} {move : Move ε} {s : Flight ε} {failed : List (Nat × ε)}
  {rest line : List Nat}

/-- How attempts end that fail. -/
def failures (failed : List (Nat × ε)) : List (Nat × Except ε Bytes) :=
  failed.map fun x => (x.1, .error x.2)

/-- After some have failed: who has had the lock since. -/
inductive Phase (o : Log ε) (failed : List (Nat × ε)) : List Nat → Prop
  | idle (hr : o.flight.record = none) (hends : o.ends = failures failed)
      (hfills : o.flight.fills = failed.length) : Phase o failed []
  | holding {i lock : Nat} (hr : o.flight.record = none)
      (hi : o.flight.callers i = .holding lock) (hends : o.ends = failures failed)
      (hfills : o.flight.fills = failed.length) : Phase o failed [i]
  | filling {i lock : Nat} (hr : o.flight.record = none)
      (hi : o.flight.callers i = .filling lock) (hends : o.ends = failures failed)
      (hfills : o.flight.fills = failed.length + 1) : Phase o failed [i]
  | filled {i lock : Nat} {data : Bytes} (hr : o.flight.record = none)
      (hi : o.flight.callers i = .filled lock data)
      (hends : o.ends = failures failed ++ [(i, .ok data)])
      (hfills : o.flight.fills = failed.length + 1) : Phase o failed [i]
  | settled {i : Nat} {data : Bytes} {later : List Nat} (hr : o.flight.record = some data)
      (hi : (o.flight.callers i).result? = some .found)
      (hlater : ∀ j ∈ later, (∃ lock, o.flight.callers j = .holding lock) ∨
        (o.flight.callers j).result? = some .found)
      (hends : o.ends = failures failed ++ [(i, .ok data)])
      (hfills : o.flight.fills = failed.length + 1) : Phase o failed (i :: later)

/-- A move of somebody whose turn it is not. -/
theorem Phase.same (hp : o.Phase failed rest) (hstep : Step o.flight i move o'.flight)
    (hturn : (o.flight.callers i).atTurn = false) (hr : o'.flight.record = o.flight.record)
    (hends : o'.ends = o.ends) (hfills : o'.flight.fills = o.flight.fills) :
    o'.Phase failed rest := by
  have hcallers : ∀ j, (o.flight.callers j).atTurn = true →
      o'.flight.callers j = o.flight.callers j := fun j hj =>
    callers_of_ne hstep fun h => by rw [h, hturn] at hj; cases hj
  cases hp with
  | idle hr' hends' hfills' =>
      exact .idle (hr.trans hr') (hends.trans hends') (hfills.trans hfills')
  | @holding j lock hr' hj hends' hfills' =>
      exact .holding (hr.trans hr') ((hcallers j (by rw [hj]; rfl)).trans hj)
        (hends.trans hends') (hfills.trans hfills')
  | @filling j lock hr' hj hends' hfills' =>
      exact .filling (hr.trans hr') ((hcallers j (by rw [hj]; rfl)).trans hj)
        (hends.trans hends') (hfills.trans hfills')
  | @filled j lock data hr' hj hends' hfills' =>
      exact .filled (hr.trans hr') ((hcallers j (by rw [hj]; rfl)).trans hj)
        (hends.trans hends') (hfills.trans hfills')
  | settled hr' hj hlater hends' hfills' =>
      refine .settled (hr.trans hr') (result?_of_result? hstep hj) (fun k hk => ?_)
        (hends.trans hends') (hfills.trans hfills')
      rcases hlater k hk with ⟨lock, hk⟩ | hk
      · exact .inl ⟨lock, (hcallers k (by rw [hk]; rfl)).trans hk⟩
      · exact .inr (result?_of_result? hstep hk)

section Turn

variable {lock : Nat}

/-- Who has the lock finds the record. -/
theorem Phase.hitLate (hp : o.Phase failed rest) (hi : o.flight.callers i = .holding lock)
    (hr : o.flight.record.isSome = true) :
    (o.note i .go (o.flight.become i (.finishing lock .found))).Phase failed rest := by
  have hstep := Step.hitLate hi hr
  cases hp with
  | idle hr' | holding hr' | filling hr' | filled hr' =>
      rw [hr'] at hr
      cases hr
  | settled hr' hj hlater hends hfills =>
      refine .settled hr' (result?_of_result? hstep hj) (fun k hk => ?_) hends hfills
      by_cases hki : k = i
      · rw [hki]
        exact .inr (congrArg Caller.result? (callers_become_self _ _ _))
      · rcases hlater k hk with ⟨l, hk⟩ | hk
        · exact .inl ⟨l, (callers_of_ne hstep hki).trans hk⟩
        · exact .inr (result?_of_result? hstep hk)

/-- Who has the lock begins to make the record. -/
theorem Phase.attempt (hp : o.Phase failed rest) (hi : o.flight.callers i = .holding lock)
    (hr : o.flight.record = none) (hmem : i ∈ rest) :
    (o.note i .go ({ o.flight with fills := o.flight.fills + 1 }.become i
      (.filling lock))).Phase failed rest := by
  cases hp with
  | idle => cases hmem
  | holding hr' hj hends hfills =>
      obtain rfl := List.mem_singleton.1 hmem
      exact .filling hr (callers_become_self _ _ _) hends (congrArg (· + 1) hfills)
  | filling _ hj | filled _ hj =>
      obtain rfl := List.mem_singleton.1 hmem
      cases hi.symm.trans hj
  | settled hr' => cases hr.symm.trans hr'

/-- Who makes the record is the only one who has had the lock since. -/
theorem Phase.of_filling (hp : o.Phase failed rest) (hi : o.flight.callers i = .filling lock)
    (hr : o.flight.record = none) (hmem : i ∈ rest) :
    rest = [i] ∧ o.ends = failures failed ∧ o.flight.fills = failed.length + 1 := by
  cases hp with
  | idle => cases hmem
  | filling hr' hj hends hfills =>
      obtain rfl := List.mem_singleton.1 hmem
      exact ⟨rfl, hends, hfills⟩
  | holding _ hj | filled _ hj =>
      obtain rfl := List.mem_singleton.1 hmem
      cases hi.symm.trans hj
  | settled hr' => cases hr.symm.trans hr'

/-- The record has been made. -/
theorem Phase.fill (hp : o.Phase failed rest) (hi : o.flight.callers i = .filling lock)
    (hr : o.flight.record = none) (hmem : i ∈ rest) {data : Bytes} :
    (o.note i (.fillEnds (.ok data))
      (o.flight.become i (.filled lock data))).Phase failed rest := by
  obtain ⟨rfl, hends, hfills⟩ := hp.of_filling hi hr hmem
  refine .filled hr (callers_become_self _ _ _) ?_ hfills
  show o.ends ++ _ = _
  rw [hends]

/-- The attempt has failed, and it was the last. -/
theorem Phase.fail (hp : o.Phase failed rest) (hi : o.flight.callers i = .filling lock)
    (hr : o.flight.record = none) (hmem : i ∈ rest) {e : ε} :
    rest = [i] ∧ (o.note i (.fillEnds (.error e))
      (o.flight.become i (.finishing lock (.failed e)))).Phase (failed ++ [(i, e)]) [] := by
  obtain ⟨rfl, hends, hfills⟩ := hp.of_filling hi hr hmem
  refine ⟨rfl, .idle hr ?_ ?_⟩
  · rw [failures, List.map_append]
    exact congrArg (· ++ [(i, .error e)]) hends
  · rw [List.length_append]
    exact hfills

/-- The record is put in place. -/
theorem Phase.put (hp : o.Phase failed rest) {data : Bytes}
    (hi : o.flight.callers i = .filled lock data) (hr : o.flight.record = none) (hmem : i ∈ rest) :
    (o.note i .go ({ o.flight with record := some data }.become i
      (.finishing lock .found))).Phase failed rest := by
  cases hp with
  | idle => cases hmem
  | filled hr' hj hends hfills =>
      obtain rfl := List.mem_singleton.1 hmem
      cases hi.symm.trans hj
      exact .settled rfl (congrArg Caller.result? (callers_become_self _ _ _))
        (fun _ h => nomatch h) hends hfills
  | holding _ hj | filling _ hj =>
      obtain rfl := List.mem_singleton.1 hmem
      cases hi.symm.trans hj
  | settled hr' => cases hr.symm.trans hr'

end Turn

/-- Who has joined has had the lock, in this order, or waits for it, in this order. -/
structure InTurn (o : Log ε) (failed : List (Nat × ε)) (rest line : List Nat) : Prop where
  arrivals : o.arrivals = failed.map Prod.fst ++ (rest ++ line)
  waiting : o.flight.Waiting line
  held : ∀ i lock, (o.flight.callers i).held? = some lock → i ∈ failed.map Prod.fst ++ rest
  errors : ∀ x ∈ failed, (o.flight.callers x.1).result? = some (.failed x.2)
  phase : o.Phase failed rest

theorem inTurn_start (ε : Type) : (start ε none).InTurn [] [] [] where
  arrivals := rfl
  waiting := ⟨fun _ => .inl rfl, 0, rfl⟩
  held := fun _ _ h => nomatch h
  errors := fun _ h => nomatch h
  phase := .idle rfl rfl rfl

namespace InTurn

/-- Who holds the lock and has no result is none of those who failed. -/
theorem mem_rest (ht : o.InTurn failed rest line) {lock : Nat}
    (hheld : (o.flight.callers i).held? = some lock)
    (hresult : (o.flight.callers i).result? = none) : i ∈ rest := by
  rcases List.mem_append.1 (ht.held i lock hheld) with h | h
  · obtain ⟨x, hx, rfl⟩ := List.mem_map.1 h
    exact nomatch hresult.symm.trans (ht.errors x hx)
  · exact h

theorem errors_step (ht : o.InTurn failed rest line) (hstep : Step o.flight i move s) :
    ∀ x ∈ failed, (s.callers x.1).result? = some (.failed x.2) :=
  fun x hx => result?_of_result? hstep (ht.errors x hx)

/-- Who holds the lock has had it before, unless it has waited for it until now. -/
theorem held_step (ht : o.InTurn failed rest line) (hstep : Step o.flight i move s)
    (hwait : ∀ lock, o.flight.callers i ≠ .waiting lock) (j lock : Nat)
    (hj : (s.callers j).held? = some lock) : j ∈ failed.map Prod.fst ++ rest := by
  rcases held?_step hstep hj with h | h
  · exact ht.held j lock h
  · have hji : j ≠ i := by
      rintro rfl
      exact hwait lock h
    rw [callers_of_ne hstep hji, h] at hj
    cases hj

/-- A move of somebody whose turn it is not and who does not wait. -/
theorem same (ht : o.InTurn failed rest line) (hstep : Step o.flight i .go s)
    (hturn : (o.flight.callers i).atTurn = false)
    (hwait : ∀ lock, o.flight.callers i ≠ .waiting lock)
    (hjoin : ∀ lock, o.flight.callers i ≠ .registered lock) (hq : s.queue = o.flight.queue)
    (hr : s.record = o.flight.record) (hfills : s.fills = o.flight.fills) :
    (o.note i .go s).InTurn failed rest line where
  arrivals := by
    rw [← ht.arrivals]
    unfold note
    split
    · rename_i lock hi
      exact absurd hi (hjoin lock)
    · rfl
  waiting := ⟨fun lock => hq ▸ ht.waiting.none_else lock, hq ▸ ht.waiting.somewhere⟩
  held := ht.held_step hstep hwait
  errors := ht.errors_step hstep
  phase := ht.phase.same hstep hturn hr rfl hfills

/-- Joining the queue. -/
theorem enqueue (ht : o.InTurn failed rest line) (hs : o.flight.Sound)
    {lock : Nat} (hi : o.flight.callers i = .registered lock)
    (hstep : Step o.flight i .go s)
    (hq : s.queue = assign o.flight.queue lock (o.flight.queue lock ++ [i]))
    (hr : s.record = o.flight.record) (hfills : s.fills = o.flight.fills) :
    (o.note i .go s).InTurn failed rest (line ++ [i]) where
  arrivals := by
    simp only [note, hi, ht.arrivals, List.append_assoc]
  waiting := by
    have hin : (o.flight.callers i).inside? = some lock := by rw [hi]; rfl
    rw [ht.waiting.queue_eq hs hin] at hq
    exact Waiting.assign hs hin hq
  held := ht.held_step hstep fun lock h => nomatch hi.symm.trans h
  errors := ht.errors_step hstep
  phase := ht.phase.same hstep (by rw [hi]; rfl) hr rfl hfills

/-- Taking the lock. -/
theorem acquire (ht : o.InTurn failed rest line) (hs : o.flight.Sound) {lock : Nat}
    (hi : o.flight.callers i = .waiting lock) (hfree : o.flight.holder lock = none)
    (hfirst : (o.flight.queue lock).head? = some i) (hstep : Step o.flight i .go s)
    (hq : s.queue = assign o.flight.queue lock (o.flight.queue lock).tail)
    (hnew : s.callers i = .holding lock) (hr : s.record = o.flight.record)
    (hfills : s.fills = o.flight.fills) :
    ∃ line', (o.note i .go s).InTurn failed (rest ++ [i]) line' := by
  have hin : (o.flight.callers i).inside? = some lock := by rw [hi]; rfl
  rw [ht.waiting.queue_eq hs hin] at hfirst hq
  obtain ⟨line, rfl⟩ := List.head?_eq_some_iff.1 hfirst
  -- the lock is free, so there is nobody whose turn it is
  have hnobody : ∀ j l, (o.flight.callers j).held? ≠ some l := fun j l hj => by
    have hentry := hs.shared j l (Caller.inside?_of_held? hj)
    obtain rfl := Option.some.inj (hentry.symm.trans (hs.shared i lock hin))
    exact nomatch hfree.symm.trans ((hs.holder j l).1 hj)
  refine ⟨line, ?_, Waiting.assign hs hin hq, fun j l hj => ?_, ht.errors_step hstep, ?_⟩
  · simp only [note, hi, ht.arrivals, List.append_assoc, List.singleton_append]
  · rw [← List.append_assoc]
    rcases held?_step hstep hj with h | h
    · exact absurd h (hnobody j l)
    · by_cases hji : j = i
      · rw [hji]
        exact List.mem_append_right _ List.mem_cons_self
      · rw [show (o.note i .go s).flight.callers j = _ from callers_of_ne hstep hji, h] at hj
        cases hj
  · cases ht.phase with
    | idle hr' hends hfills' => exact .holding (hr.trans hr') hnew hends (hfills.trans hfills')
    | @holding j l _ hj | @filling j l _ hj | @filled j l _ _ hj =>
        exact absurd (by rw [hj]; rfl) (hnobody j l)
    | settled hr' hj hlater hends hfills' =>
        refine .settled (hr.trans hr') (result?_of_result? hstep hj) (fun k hk => ?_) hends
          (hfills.trans hfills')
        rcases List.mem_append.1 hk with hk | hk
        · rcases hlater k hk with ⟨l, hk⟩ | hk
          · exact absurd (by rw [hk]; rfl) (hnobody k l)
          · exact .inr (result?_of_result? hstep hk)
        · rw [List.mem_singleton.1 hk]
          exact .inl ⟨lock, hnew⟩

/-- Who has the lock does not join a queue. -/
theorem arrivals_note (hturn : (o.flight.callers i).atTurn = true) :
    (o.note i move s).arrivals = o.arrivals := by
  unfold note
  split
  · rename_i lock hi
    rw [hi] at hturn
    cases hturn
  · rfl

/-- A move of the caller whose turn it is. -/
theorem turn (ht : o.InTurn failed rest line) (hstep : Step o.flight i move s)
    (hturn : (o.flight.callers i).atTurn = true) (hq : s.queue = o.flight.queue)
    (hphase : (o.note i move s).Phase failed rest) : (o.note i move s).InTurn failed rest line where
  arrivals := (arrivals_note hturn).trans ht.arrivals
  waiting := ⟨fun lock => hq ▸ ht.waiting.none_else lock, hq ▸ ht.waiting.somewhere⟩
  held := ht.held_step hstep fun lock h => by rw [h] at hturn; cases hturn
  errors := ht.errors_step hstep
  phase := hphase

/-- The attempt of the caller whose turn it is fails. -/
theorem fail (ht : o.InTurn failed [i] line) {e : ε} (hstep : Step o.flight i move s)
    (hturn : (o.flight.callers i).atTurn = true) (hq : s.queue = o.flight.queue)
    (hnew : (s.callers i).result? = some (.failed e))
    (hphase : (o.note i move s).Phase (failed ++ [(i, e)]) []) :
    (o.note i move s).InTurn (failed ++ [(i, e)]) [] line where
  arrivals := by
    rw [arrivals_note hturn, ht.arrivals]
    simp
  waiting := ⟨fun lock => hq ▸ ht.waiting.none_else lock, hq ▸ ht.waiting.somewhere⟩
  held := fun j lock hj => by
    have h := ht.held_step hstep (fun lock h => by rw [h] at hturn; cases hturn) j lock hj
    simpa using h
  errors := fun x hx => by
    rcases List.mem_append.1 hx with hx | hx
    · exact ht.errors_step hstep x hx
    · rw [List.mem_singleton.1 hx]
      exact hnew
  phase := hphase

/-- Every move but a call-off is the turn of somebody in the order of the queue. -/
theorem step (ht : o.InTurn failed rest line) (hs : o.flight.Sound)
    (h : o.step? i move = some o') (hmove : move ≠ .callOff) :
    ∃ failed rest line, o'.InTurn failed rest line := by
  obtain ⟨hstep, hnote⟩ := step?_eq_some h
  rw [hnote]
  generalize o'.flight = s at hstep
  have hmove' := hstep
  cases hstep with
  | giveUp hi | abandon hi => exact absurd rfl hmove
  | hit hi | miss hi | register hi | unlock hi | withdraw hi | release hi =>
      exact ⟨_, _, _, ht.same hmove' (by rw [hi]; rfl) (fun _ h => nomatch hi.symm.trans h)
        (fun _ h => nomatch hi.symm.trans h) rfl rfl rfl⟩
  | enqueue hi => exact ⟨_, _, _, ht.enqueue hs hi hmove' rfl rfl rfl⟩
  | acquire hi hfree hfirst =>
      obtain ⟨line', h⟩ := ht.acquire hs hi hfree hfirst hmove' rfl
        (callers_become_self _ _ _) rfl rfl
      exact ⟨_, _, _, h⟩
  | hitLate hi hr =>
      exact ⟨_, _, _, ht.turn hmove' (by rw [hi]; rfl) rfl (ht.phase.hitLate hi hr)⟩
  | attempt hi hr =>
      have hmem := ht.mem_rest (by rw [hi]; rfl) (by rw [hi]; rfl)
      exact ⟨_, _, _, ht.turn hmove' (by rw [hi]; rfl) rfl (ht.phase.attempt hi hr hmem)⟩
  | fill hi =>
      have hmem := ht.mem_rest (by rw [hi]; rfl) (by rw [hi]; rfl)
      have hr := hs.missing i (by rw [hi]; rfl)
      exact ⟨_, _, _, ht.turn hmove' (by rw [hi]; rfl) rfl (ht.phase.fill hi hr hmem)⟩
  | fail hi =>
      have hmem := ht.mem_rest (by rw [hi]; rfl) (by rw [hi]; rfl)
      have hr := hs.missing i (by rw [hi]; rfl)
      obtain ⟨rfl, hphase⟩ := ht.phase.fail hi hr hmem
      exact ⟨_, _, _, ht.fail hmove' (by rw [hi]; rfl) rfl
        (congrArg Caller.result? (callers_become_self _ _ _)) hphase⟩
  | put hi =>
      have hmem := ht.mem_rest (by rw [hi]; rfl) (by rw [hi]; rfl)
      have hr := hs.missing i (by rw [hi]; rfl)
      exact ⟨_, _, _, ht.turn hmove' (by rw [hi]; rfl) rfl (ht.phase.put hi hr hmem)⟩

end InTurn

/-- A run without call-offs from where there is no record yet. -/
theorem inTurn_run {schedule : List (Nat × Move ε)} (h : (start ε none).run? schedule = some o)
    (hstay : ∀ m ∈ schedule, m.2 ≠ .callOff) : ∃ failed rest line, o.InTurn failed rest line := by
  refine (run?_induction (P := fun a => a.flight.Sound ∧ ∃ failed rest line,
    a.InTurn failed rest line) h ⟨sound_start none, _, _, _, inTurn_start ε⟩ ?_).2
  rintro m hm a b ⟨hs, _, _, _, ht⟩ hb
  exact ⟨hs.step (step?_eq_some hb).1, ht.step hs hb (hstay m hm)⟩

/-! ## What the callers get -/

/-- What those get who have queued, if the attempts end with these outcomes, of which the
one with number `k` is the first success. -/
structure Served (o : Log ε) (outcomes : Nat → Except ε Bytes) (k : Nat) : Prop where
  fills : o.flight.fills = min (k + 1) o.arrivals.length
  before : ∀ m i, o.arrivals[m]? = some i → m < k →
    ∃ e, outcomes m = .error e ∧ o.flight.callers i = .done (.failed e)
  after : ∀ m i, o.arrivals[m]? = some i → k ≤ m → o.flight.callers i = .done .found
  record : ∀ data, o.flight.record = some data ↔ k < o.arrivals.length ∧ outcomes k = .ok data

section Served

variable {outcomes : Nat → Except ε Bytes} {k : Nat}

variable {tail : List (Nat × Except ε Bytes)}

theorem outcome_of_failed (hends : o.ends = failures failed ++ tail)
    (hout : ∀ m x, o.ends[m]? = some x → x.2 = outcomes m) {m : Nat} (hm : m < failed.length) :
    outcomes m = .error failed[m].2 := by
  refine (hout m (failed[m].1, .error failed[m].2) ?_).symm
  rw [hends, List.getElem?_append_left (by rw [failures, List.length_map]; exact hm), failures,
    List.getElem?_map, List.getElem?_eq_getElem hm]
  rfl

/-- There is no success among the attempts that failed. -/
theorem failed_length_le (hends : o.ends = failures failed ++ tail)
    (hout : ∀ m x, o.ends[m]? = some x → x.2 = outcomes m)
    (hle : failed.length ≤ o.arrivals.length)
    (hfirst : k < o.arrivals.length → ∃ data, outcomes k = .ok data) : failed.length ≤ k := by
  refine Nat.le_of_not_lt fun hlt => ?_
  obtain ⟨data, hdata⟩ := hfirst (Nat.lt_of_lt_of_le hlt hle)
  exact nomatch hdata.symm.trans (outcome_of_failed hends hout hlt)

theorem done_of_result? {c : Caller ε} {r : CallResult ε} (hdone : ∃ r, c = .done r)
    (hr : c.result? = some r) : c = .done r := by
  obtain ⟨r', rfl⟩ := hdone
  exact congrArg Caller.done (Option.some.inj hr)

/-- Whose call is over neither waits nor holds the lock. -/
theorem InTurn.at_end (ht : o.InTurn failed rest line) (hs : o.flight.Sound)
    (hdone : ∀ i ∈ o.arrivals, ∃ r, o.flight.callers i = .done r) :
    o.arrivals = failed.map Prod.fst ++ rest ∧
      ∀ i ∈ rest, (o.flight.callers i).atTurn = false := by
  have hline : line = [] := by
    obtain ⟨lock, hq⟩ := ht.waiting.somewhere
    refine List.eq_nil_iff_forall_not_mem.2 fun i hi => ?_
    have hwait := (hs.queued i lock).1 (hq ▸ hi)
    obtain ⟨r, hr⟩ := hdone i (by simp [ht.arrivals, hi])
    cases hwait.symm.trans hr
  have harr := ht.arrivals
  rw [hline, List.append_nil] at harr
  refine ⟨harr, fun i hi => ?_⟩
  obtain ⟨r, hr⟩ := hdone i (by simp [harr, hi])
  rw [hr]
  rfl

/-- Those whose attempt has failed get the error of it. -/
theorem InTurn.before (ht : o.InTurn failed rest line)
    (hdone : ∀ i ∈ o.arrivals, ∃ r, o.flight.callers i = .done r)
    (hends : o.ends = failures failed ++ tail)
    (hout : ∀ m x, o.ends[m]? = some x → x.2 = outcomes m) {m i : Nat}
    (hi : o.arrivals[m]? = some i) (hm : m < failed.length) :
    ∃ e, outcomes m = .error e ∧ o.flight.callers i = .done (.failed e) := by
  have hfst : i = failed[m].1 := by
    rw [ht.arrivals, List.getElem?_append_left (by rw [List.length_map]; exact hm),
      List.getElem?_map, List.getElem?_eq_getElem hm] at hi
    exact (Option.some.inj hi).symm
  refine ⟨failed[m].2, outcome_of_failed hends hout hm,
    done_of_result? (hdone i (List.mem_of_getElem? hi)) ?_⟩
  rw [hfst]
  exact ht.errors _ (List.getElem_mem hm)

/-- If all have failed, nobody finds a record. -/
theorem InTurn.served_of_idle (ht : o.InTurn failed [] line)
    (hdone : ∀ i ∈ o.arrivals, ∃ r, o.flight.callers i = .done r)
    (hout : ∀ m x, o.ends[m]? = some x → x.2 = outcomes m)
    (hfirst : k < o.arrivals.length → ∃ data, outcomes k = .ok data)
    (hlen : o.arrivals.length = failed.length) (hr : o.flight.record = none)
    (hends : o.ends = failures failed) (hfills : o.flight.fills = failed.length) :
    o.Served outcomes k := by
  rw [← List.append_nil (failures failed)] at hends
  have hk : o.arrivals.length ≤ k :=
    hlen ▸ failed_length_le hends hout (Nat.le_of_eq hlen.symm) hfirst
  refine ⟨?_, fun m i hi hm => ?_, fun m i hi hm => ?_, fun data => ?_⟩
  · rw [hfills, Nat.min_eq_right (by omega), hlen]
  · exact ht.before hdone hends hout hi (hlen ▸ (List.getElem?_eq_some_iff.1 hi).1)
  · have hlt := (List.getElem?_eq_some_iff.1 hi).1
    omega
  · rw [hr]
    exact ⟨fun h => (nomatch h), fun h => absurd h.1 (Nat.not_lt.2 hk)⟩

/-- The first success is that of the caller after those who failed. -/
theorem first_success {i : Nat} {data : Bytes} (hends : o.ends = failures failed ++ [(i, .ok data)])
    (hout : ∀ m x, o.ends[m]? = some x → x.2 = outcomes m)
    (hbefore : ∀ m < k, ∃ e, outcomes m = .error e) (hle : failed.length ≤ k) :
    k = failed.length ∧ outcomes k = .ok data := by
  have hok : outcomes failed.length = .ok data := by
    refine (hout failed.length (i, .ok data) ?_).symm
    rw [hends, List.getElem?_append_right (by rw [failures, List.length_map]), failures,
      List.length_map, Nat.sub_self]
    rfl
  have hge : k ≤ failed.length := by
    refine Nat.le_of_not_lt fun hlt => ?_
    obtain ⟨e, he⟩ := hbefore _ hlt
    exact nomatch hok.symm.trans he
  obtain rfl := Nat.le_antisymm hge hle
  exact ⟨rfl, hok⟩

theorem InTurn.served (ht : o.InTurn failed rest line) (hs : o.flight.Sound)
    (hdone : ∀ i ∈ o.arrivals, ∃ r, o.flight.callers i = .done r)
    (hout : ∀ m x, o.ends[m]? = some x → x.2 = outcomes m)
    (hbefore : ∀ m < k, ∃ e, outcomes m = .error e)
    (hfirst : k < o.arrivals.length → ∃ data, outcomes k = .ok data) : o.Served outcomes k := by
  obtain ⟨harr, hturn⟩ := ht.at_end hs hdone
  have hlen : o.arrivals.length = failed.length + rest.length := by
    rw [harr, List.length_append, List.length_map]
  cases ht.phase with
  | @holding i l _ hi | @filling i l _ hi | @filled i l _ _ hi =>
      have h := hturn i List.mem_cons_self
      rw [hi] at h
      cases h
  | idle hr hends hfills => exact ht.served_of_idle hdone hout hfirst hlen hr hends hfills
  | @settled i data later hr hi hlater hends hfills =>
      rw [List.length_cons] at hlen
      obtain ⟨rfl, hok⟩ := first_success hends hout hbefore
        (failed_length_le hends hout (by omega) hfirst)
      refine ⟨?_, fun m j hj hm => ht.before hdone hends hout hj hm, fun m j hj hm => ?_,
        fun data' => ?_⟩
      · rw [hfills, Nat.min_eq_left (by omega)]
      · refine done_of_result? (hdone j (List.mem_of_getElem? hj)) ?_
        rw [harr, List.getElem?_append_right (by rw [List.length_map]; exact hm)] at hj
        rcases List.mem_cons.1 (List.mem_of_getElem? hj) with rfl | hmem
        · exact hi
        · rcases hlater j hmem with ⟨lock, hhold⟩ | hfound
          · have h := hturn j (List.mem_cons_of_mem _ hmem)
            rw [hhold] at h
            cases h
          · exact hfound
      · rw [hr, hok]
        refine ⟨fun h => ⟨by omega, congrArg Except.ok (Option.some.inj h)⟩, fun h => ?_⟩
        exact congrArg some (Except.ok.inj h.2)

end Served

/-- Callers that want one record, any number of them, moving in any order and called off
wherever they wait. -/
theorem single_flight (record : Option Bytes) (schedule : List (Nat × Move ε)) (o : Log ε)
    (h : (start ε record).run? schedule = some o) :
    -- one attempt at a time
    (∀ i j, (o.flight.callers i).hasTemporary = true → (o.flight.callers j).hasTemporary = true →
      i = j) ∧
    -- none once the record is there
    (∀ data, o.flight.record = some data → ∀ later o', o.run? later = some o' →
      o'.flight.record = some data ∧ o'.flight.fills = o.flight.fills ∧
        ∀ i, (o'.flight.callers i).hasTemporary = false) ∧
    (∀ i, o.flight.callers i = .done .found → o.flight.record.isSome = true) ∧
    (∀ i e, o.flight.callers i = .done (.failed e) → (i, .fillEnds (.error e)) ∈ schedule) ∧
    (∀ i, o.flight.callers i = .done .calledOff → (i, .callOff) ∈ schedule) ∧
    -- every call comes to an end
    (∀ i, (schedule.filter (·.1 = i)).length ≤ 10) ∧
    (∀ i, o.flight.callers i ≠ .arriving → (∀ result, o.flight.callers i ≠ .done result) →
      ∃ j, o.flight.callers j ≠ .arriving ∧ o.flight.CanMove j) ∧
    -- in the order of the queue
    (record = none → (∀ m ∈ schedule, m.2 ≠ .callOff) → o.arrivals.Nodup ∧
      ∀ (outcomes : Nat → Except ε Bytes) (k : Nat),
        (∀ m x, o.ends[m]? = some x → x.2 = outcomes m) →
        (∀ m < k, ∃ e, outcomes m = .error e) →
        (k < o.arrivals.length → ∃ data, outcomes k = .ok data) →
        (∀ i ∈ o.arrivals, ∃ result, o.flight.callers i = .done result) →
        o.Served outcomes k) := by
  have hs := sound_run h (sound_start record)
  have hacc := accounted_run h ⟨fun _ _ h => (nomatch h), fun _ h => (nomatch h)⟩
  refine ⟨fun i j hi hj => ?_, fun data hr later o' hlater => ?_, fun i hi => ?_, fun i e hi => ?_,
    fun i hi => ?_, fun i => ?_, fun i harr hdone => hs.exists_canMove harr hdone, ?_⟩
  · obtain ⟨lock, hlock⟩ := Caller.held?_of_hasTemporary hi
    obtain ⟨lock', hlock'⟩ := Caller.held?_of_hasTemporary hj
    exact hs.holder_unique hlock hlock'
  · obtain ⟨hr', hfills⟩ := record_run hlater hs hr
    refine ⟨hr', hfills, fun i => Bool.eq_false_iff.2 fun hi => ?_⟩
    exact nomatch ((sound_run hlater hs).missing i hi).symm.trans hr'
  · exact hs.found i (by rw [hi]; rfl)
  · exact hacc.failed i e (by rw [hi]; rfl)
  · exact hacc.calledOff i (by rw [hi]; rfl)
  · have hle := moves_run h i
    exact Nat.le_trans (Nat.le_trans (Nat.le_add_left _ _) hle) (Caller.stage_le _)
  · rintro rfl hstay
    refine ⟨(joined_run h ⟨List.nodup_nil, fun _ h => nomatch h⟩).nodup, ?_⟩
    intro outcomes k hout hbefore hfirst hdone
    obtain ⟨failed, rest, line, ht⟩ := inTurn_run h hstay
    exact ht.served hs hdone hout hbefore hfirst

/-! Three callers queue up; the attempt of the first fails, and that of the second does not. -/
namespace ThreeCallers

def schedule : List (Nat × Move String) :=
  [(0, .go), (1, .go), (0, .go), (1, .go), (2, .go), (2, .go), (0, .go), (1, .go), (2, .go),
    (0, .go), (0, .go), (0, .fillEnds (.error "gone")), (0, .go), (1, .go), (0, .go), (1, .go),
    (0, .go), (1, .fillEnds (.ok [7])), (1, .go), (1, .go), (2, .go), (1, .go), (2, .go), (2, .go),
    (1, .go), (2, .go), (2, .go)]

def outcomes (m : Nat) : Except String Bytes := if m = 0 then .error "gone" else .ok [7]

/-- The calls of all three are over. -/
theorem calls_over : ∃ o, (start String none).run? schedule = some o ∧ o.arrivals = [0, 1, 2] ∧
    o.ends = [(0, .error "gone"), (1, .ok [7])] ∧
    o.flight.callers 0 = .done (.failed "gone") ∧ o.flight.callers 1 = .done .found ∧
    o.flight.callers 2 = .done .found :=
  ⟨_, rfl, rfl, rfl, rfl, rfl, rfl⟩

theorem three_callers_served : ∃ o, (start String none).run? schedule = some o ∧
    o.arrivals.length = 3 ∧ o.Served outcomes 1 := by
  obtain ⟨o, hrun, harr, hends, hzero, hone, htwo⟩ := calls_over
  refine ⟨o, hrun, by rw [harr]; rfl, ?_⟩
  obtain ⟨-, -, -, -, -, -, -, hserved⟩ := single_flight none schedule o hrun
  refine (hserved rfl (by simp [schedule])).2 outcomes 1 (fun m x hx => ?_) (fun m hm => ?_)
    (fun _ => ⟨[7], rfl⟩) (fun i hi => ?_)
  · rw [hends] at hx
    match m with
    | 0 => exact Option.some.inj hx ▸ rfl
    | 1 => exact Option.some.inj hx ▸ rfl
    | m + 2 => cases hx
  · obtain rfl := Nat.lt_one_iff.1 hm
    exact ⟨"gone", rfl⟩
  · rw [harr] at hi
    simp only [List.mem_cons, List.not_mem_nil, or_false] at hi
    rcases hi with rfl | rfl | rfl
    · exact ⟨_, hzero⟩
    · exact ⟨_, hone⟩
    · exact ⟨_, htwo⟩

end ThreeCallers

end Log

end Flight

end ArchiveMount

/-
# `ArchiveMount.Proofs.Cache.Visitors` — when a lock is left behind

Callers come, withdraw and release in any order.  `Sound` is the invariant of their runs: the
references are counted, and the lock of everybody inside stands in the map.  So all who are inside
share one lock, and it is not taken off the map while anybody else refers to it.

It need not be taken off at all.  Two that withdraw before either has released count each other,
and neither takes the lock off; it stays until somebody comes again.  `Stranded` says that the last
to withdraw did so, and that nobody has come since.  Of a run after which nobody is inside, this is
the exact condition for the map to hold a lock (`entry_ne_none_iff`).

Callers who want different records do not meet (`Registry.run?_under`).
-/
import ArchiveMount.Proofs.Cache.InFlight

namespace ArchiveMount

namespace Visitors

/-! ## All that a step can do -/

/-- The steps of a caller, one constructor for each. -/
inductive Step (s : Visitors) (i : Nat) : Visitors → Prop
  | come (hi : s.visits i = .away) :
      Step s i ⟨s.map.register.2, assign s.visits i (.inside s.map.register.1)⟩
  | withdraw {lock : Nat} (hi : s.visits i = .inside lock) :
      Step s i ⟨s.map.withdraw lock, assign s.visits i (.withdrawn lock)⟩
  | release {lock : Nat} (hi : s.visits i = .withdrawn lock) :
      Step s i ⟨s.map.release lock, assign s.visits i .left⟩

variable {s s' last : Visitors} {i j lock : Nat} {schedule : List Nat}

theorem step_of_step? (h : s.step? i = some s') : Step s i s' := by
  unfold step? at h
  split at h
  case h_1 hi =>
    obtain rfl := Option.some.inj h
    exact .come hi
  case h_2 hi =>
    obtain rfl := Option.some.inj h
    exact .withdraw hi
  case h_3 hi =>
    obtain rfl := Option.some.inj h
    exact .release hi
  case h_4 => cases h

theorem step?_of_step (h : Step s i s') : s.step? i = some s' := by
  cases h with
  | come hi | withdraw hi | release hi => simp only [step?, hi]

theorem visits_of_ne (h : Step s i s') (hj : j ≠ i) : s'.visits j = s.visits j := by
  cases h with
  | come | withdraw | release => exact assign_of_ne _ _ hj

theorem visits_ne_away (h : Step s i s') : s'.visits i ≠ .away := by
  cases h with
  | come | withdraw | release => simp

/-- Nobody is away again. -/
theorem away_of_step (h : Step s i s') (hj : s'.visits j = .away) : s.visits j = .away := by
  have hne : j ≠ i := by
    rintro rfl
    exact visits_ne_away h hj
  rw [← visits_of_ne h hne, hj]

/-! ## Runs -/

theorem exists_of_run?_cons (h : s.run? (i :: schedule) = some last) :
    ∃ s', s.step? i = some s' ∧ s'.run? schedule = some last := by
  rw [run?, List.foldlM_cons] at h
  exact Option.bind_eq_some_iff.1 h

theorem run?_append_eq_some_iff {before after : List Nat} :
    s.run? (before ++ after) = some last ↔
      ∃ s', s.run? before = some s' ∧ s'.run? after = some last := by
  rw [run?, List.foldlM_append]
  exact Option.bind_eq_some_iff

theorem run?_singleton (s : Visitors) (i : Nat) : s.run? [i] = s.step? i := by
  rw [run?, List.foldlM_cons]
  cases s.step? i <;> rfl

/-- What every step keeps holds at the end of a run. -/
theorem run?_induction {P : Visitors → Prop} (h : s.run? schedule = some last) (hs : P s)
    (hstep : ∀ i a b, P a → Step a i b → P b) : P last := by
  induction schedule generalizing s with
  | nil =>
      obtain rfl := Option.some.inj h
      exact hs
  | cons i schedule ih =>
      obtain ⟨s', hfirst, hrun⟩ := exists_of_run?_cons h
      exact ih hrun (hstep i s s' hs (step_of_step? hfirst))

theorem away_of_run (h : s.run? schedule = some last) (hj : last.visits j = .away) :
    s.visits j = .away :=
  run?_induction (P := fun a => a.visits j = .away → s.visits j = .away) h id
    (fun _ _ _ ha hstep hb => ha (away_of_step hstep hb)) hj

/-! ## The invariant -/

/-- The references are counted, and who is inside refers to the lock in the map. -/
structure Sound (s : Visitors) : Prop where
  counts : s.map.Counts fun i => (s.visits i).lock?
  shared : ∀ i lock, s.visits i = .inside lock → s.map.entry = some lock

theorem sound_start : Sound {} where
  counts := InFlight.counts_empty
  shared := fun _ _ h => nomatch h

namespace Sound

theorem counts_step (hs : s.Sound) (h : Step s i s') :
    s'.map.Counts fun i => (s'.visits i).lock? := by
  cases h with
  | come hi =>
      rw [comp_assign]
      exact hs.counts.register (by rw [hi]; rfl)
  | @withdraw lock hi =>
      have hsame : (fun j => (assign s.visits i (.withdrawn lock) j).lock?) =
          fun j => (s.visits j).lock? :=
        (comp_assign _ _ _ _).trans (assign_eq_self _ _ (by rw [hi]; rfl))
      rw [hsame]
      exact hs.counts.withdraw lock
  | release hi =>
      rw [comp_assign]
      exact hs.counts.release (by rw [hi]; rfl)

/-- All who are inside share a lock. -/
theorem inside_unique (hs : s.Sound) {l l' : Nat} (hi : s.visits i = .inside l)
    (hj : s.visits j = .inside l') : l = l' :=
  Option.some.inj ((hs.shared i l hi).symm.trans (hs.shared j l' hj))

/-- A lock that is in use is still in the map after others have taken their steps. -/
theorem shared_step (hs : s.Sound) (h : Step s i s') :
    ∀ j lock, s'.visits j = .inside lock → s'.map.entry = some lock := by
  intro j lock hj
  by_cases hji : j = i
  · subst hji
    cases h with
    | come =>
        obtain rfl := Visit.inside.inj ((assign_self _ _ _).symm.trans hj)
        exact s.map.entry_register
    | withdraw | release => simp at hj
  · rw [visits_of_ne h hji] at hj
    have hentry := hs.shared j lock hj
    cases h with
    | come =>
        have hsame : s.map.register.1 = lock := by rw [InFlight.register_of_some hentry]
        rw [← hsame]
        exact s.map.entry_register
    | withdraw hi =>
        obtain rfl := hs.inside_unique hj hi
        refine (hs.counts.entry_withdraw (Ne.symm hji) ?_ ?_).trans hentry
        · rw [hi]
          rfl
        · rw [hj]
          rfl
    | release => exact hentry

theorem step (hs : s.Sound) (h : Step s i s') : s'.Sound :=
  ⟨hs.counts_step h, hs.shared_step h⟩

theorem run (hs : s.Sound) (h : s.run? schedule = some last) : last.Sound :=
  run?_induction h hs fun _ _ _ => step

/-- Whoever takes a lock off the map is inside with it, and nobody else refers to it. -/
theorem taken_off (hs : s.Sound) (h : Step s i s') (hentry : s.map.entry = some lock)
    (hgone : s'.map.entry ≠ some lock) :
    s.visits i = .inside lock ∧ ∀ j, j ≠ i → (s.visits j).lock? ≠ some lock := by
  cases h with
  | come =>
      rw [InFlight.register_of_some hentry] at hgone
      exact absurd hentry hgone
  | @withdraw taken hi =>
      obtain rfl : taken = lock := Option.some.inj ((hs.shared i taken hi).symm.trans hentry)
      refine ⟨hi, fun j hne hj => hgone ?_⟩
      refine (hs.counts.entry_withdraw hne.symm ?_ hj).trans hentry
      rw [hi]
      rfl
  | release => exact absurd hentry hgone

end Sound

/-! ## Locks that are left behind -/

/-- Nobody is inside. -/
def Quiet (s : Visitors) : Prop := ∀ i lock, s.visits i ≠ .inside lock

theorem Settled.quiet (hs : s.Settled) : s.Quiet := by
  intro i lock hi
  rcases hs i with h | h
  · cases hi.symm.trans h
  · cases hi.symm.trans h

/-- While nobody is inside, those who have come can only release. -/
theorem Quiet.step (hs : s.Quiet) (h : Step s i s') (hi : s.visits i ≠ .away) :
    s'.Quiet ∧ s'.map.entry = s.map.entry := by
  cases h with
  | come haway => exact absurd haway hi
  | withdraw hinside => exact absurd hinside (hs i _)
  | release =>
      refine ⟨fun k lock hk => ?_, rfl⟩
      by_cases hki : k = i
      · subst hki
        simp at hk
      · exact hs k lock ((assign_of_ne _ _ hki).symm.trans hk)

/-- As long as nobody comes, the map stays as it is. -/
theorem Quiet.entry_run (hs : s.Quiet) (h : s.run? schedule = some last)
    (hnone : ∀ k, s.visits k = .away → last.visits k = .away) :
    last.map.entry = s.map.entry := by
  induction schedule generalizing s with
  | nil =>
      obtain rfl := Option.some.inj h
      rfl
  | cons i schedule ih =>
      obtain ⟨s', hstep, hrun⟩ := exists_of_run?_cons h
      have hstep := step_of_step? hstep
      -- who comes is not away at the end
      have hi : s.visits i ≠ .away :=
        fun haway => visits_ne_away hstep (away_of_run hrun (hnone i haway))
      obtain ⟨hs', hentry⟩ := hs.step hstep hi
      exact (ih hs' hrun fun k hk => hnone k (away_of_step hstep hk)).trans hentry

/-- In a run that ends with `last`, the last one inside withdrew while another who had withdrawn
still referred to the lock, and nobody has come since. -/
def Stranded (schedule : List Nat) (last : Visitors) : Prop :=
  ∃ before i after s lock j, schedule = before ++ i :: after ∧
    run? {} before = some s ∧ s.visits i = .inside lock ∧
    (∀ k l, s.visits k = .inside l → k = i) ∧
    j ≠ i ∧ s.visits j = .withdrawn lock ∧
    ∀ k, s.visits k = .away → last.visits k = .away

/-- When the last one inside withdraws and the lock stays, somebody else refers to it. -/
theorem stranded_of_withdraw {before : List Nat} (hrun : run? {} before = some s)
    (hi : s.visits i = .inside lock) (honly : ∀ k l, s.visits k = .inside l → k = i)
    (hstays : (s.map.withdraw lock).entry ≠ none) :
    Stranded (before ++ [i]) ⟨s.map.withdraw lock, assign s.visits i (.withdrawn lock)⟩ := by
  have hs := sound_start.run hrun
  obtain ⟨j, hne, hj⟩ := hs.counts.exists_other (i := i) (by rw [hi]; rfl) (hs.shared i lock hi)
    hstays
  have hwithdrawn : s.visits j = .withdrawn lock := by
    cases hvisit : s.visits j with
    | inside l => exact absurd (honly j l hvisit) hne
    | withdrawn l =>
        rw [hvisit] at hj
        rw [Option.some.inj hj]
    | away | left =>
        rw [hvisit] at hj
        cases hj
  refine ⟨before, i, [], s, lock, j, rfl, hrun, hi, honly, hne, hwithdrawn, fun k hk => ?_⟩
  refine (assign_of_ne _ _ ?_).trans hk
  rintro rfl
  cases hi.symm.trans hk

theorem Stranded.release {before : List Nat} (h : Stranded before s)
    (hi : s.visits i = .withdrawn lock) :
    Stranded (before ++ [i]) ⟨s.map.release lock, assign s.visits i .left⟩ := by
  obtain ⟨before, last, after, s₁, lock', j, rfl, hrun, hlast, honly, hne, hj, haway⟩ := h
  refine ⟨before, last, after ++ [i], s₁, lock', j, ?_, hrun, hlast, honly, hne, hj,
    fun k hk => (assign_of_ne _ _ ?_).trans (haway k hk)⟩
  · rw [List.append_assoc, List.cons_append]
  · rintro rfl
    cases hi.symm.trans (haway _ hk)

/-- The lock in a map when nobody is inside was left behind. -/
theorem stranded_of_entry (h : run? {} schedule = some last) (hquiet : last.Quiet)
    (hentry : last.map.entry ≠ none) : Stranded schedule last := by
  -- from the end of the schedule: releases, and before them the last one to withdraw
  induction schedule using List.reverseRecOn generalizing last with
  | nil =>
      obtain rfl := Option.some.inj h
      exact absurd rfl hentry
  | append_singleton before i ih =>
      obtain ⟨s, hrun, hstep⟩ := run?_append_eq_some_iff.1 h
      rw [run?_singleton] at hstep
      have hstep := step_of_step? hstep
      have honly : ∀ k l, s.visits k = .inside l → k = i := by
        intro k l hk
        by_contra hne
        exact hquiet k l ((visits_of_ne hstep hne).trans hk)
      cases hstep with
      | come => exact absurd (assign_self s.visits i _) (hquiet i _)
      | withdraw hi => exact stranded_of_withdraw hrun hi honly hentry
      | release hi =>
          have hbefore : s.Quiet := by
            intro k l hk
            obtain rfl := honly k l hk
            cases hi.symm.trans hk
          exact (ih hrun hbefore hentry).release hi

theorem entry_of_stranded (h : run? {} schedule = some last) (hs : Stranded schedule last) :
    last.map.entry ≠ none := by
  obtain ⟨before, i, after, s, lock, j, rfl, hrun, hi, honly, hne, hj, haway⟩ := hs
  obtain ⟨s', hrun', hrest⟩ := run?_append_eq_some_iff.1 h
  obtain rfl := Option.some.inj (hrun.symm.trans hrun')
  obtain ⟨s', hstep, hrest⟩ := exists_of_run?_cons hrest
  have hsound := sound_start.run hrun
  have hstep := step_of_step? hstep
  -- the step of the last one inside; what comes after it are releases
  cases hstep with
  | come hi' => cases hi.symm.trans hi'
  | release hi' => cases hi.symm.trans hi'
  | withdraw hi' =>
      obtain rfl := Visit.inside.inj (hi.symm.trans hi')
      have hquiet : Quiet ⟨s.map.withdraw lock, assign s.visits i (.withdrawn lock)⟩ := by
        intro k l hk
        by_cases hki : k = i
        · subst hki
          simp at hk
        · exact hki (honly k l ((assign_of_ne _ _ hki).symm.trans hk))
      have hstays : (s.map.withdraw lock).entry = some lock :=
        (hsound.counts.entry_withdraw hne.symm (by rw [hi]; rfl) (by rw [hj]; rfl)).trans
          (hsound.shared i lock hi)
      rw [hquiet.entry_run hrest fun k hk => haway k (away_of_step (.withdraw hi') hk)]
      show (s.map.withdraw lock).entry ≠ none
      rw [hstays]
      exact Option.some_ne_none lock

/-- The map holds a lock after everybody has withdrawn if one was left behind, and only then. -/
theorem entry_ne_none_iff (h : run? {} schedule = some last) (hquiet : last.Quiet) :
    last.map.entry ≠ none ↔ Stranded schedule last :=
  ⟨stranded_of_entry h hquiet, entry_of_stranded h⟩

end Visitors

/-! ## Callers who want different records -/

namespace Registry

variable {digests : Nat → String} {r r' last : Registry} {i : Nat} {digest : String}
  {schedule : List Nat}

theorem exists_of_step? (h : step? digests r i = some r') :
    ∃ s, Visitors.Step ⟨r.maps (digests i), r.visits⟩ i s ∧
      r' = ⟨fun other => if other = digests i then s.map else r.maps other, s.visits⟩ := by
  obtain ⟨s, hstep, rfl⟩ := Option.map_eq_some_iff.1 h
  exact ⟨s, Visitors.step_of_step? hstep, rfl⟩

theorem visits_of_ne (h : step? digests r i = some r') {j : Nat} (hj : j ≠ i) :
    r'.visits j = r.visits j := by
  obtain ⟨s, hstep, rfl⟩ := exists_of_step? h
  exact Visitors.visits_of_ne hstep hj

theorem maps_of_ne (h : step? digests r i = some r') (hi : digests i ≠ digest) :
    r'.maps digest = r.maps digest := by
  obtain ⟨s, -, rfl⟩ := exists_of_step? h
  exact if_neg hi.symm

theorem visits_under (h : digests i = digest) :
    (r.under digests digest).visits i = r.visits i := if_pos h

theorem visits_under_of_ne (h : digests i ≠ digest) :
    (r.under digests digest).visits i = .away := if_neg h

/-- At first nobody is there under any digest. -/
theorem under_start (digests : Nat → String) (digest : String) :
    under digests {} digest = {} := by
  rw [under, Visitors.mk.injEq]
  exact ⟨rfl, funext fun _ => ite_self _⟩

/-- What one who wants a record changes, changes for those who want it too. -/
theorem under_assign (r : Registry) (i : Nat) (map : InFlight) (visit : Visit) :
    under digests ⟨fun other => if other = digests i then map else r.maps other,
        assign r.visits i visit⟩ (digests i) =
      ⟨map, assign (r.under digests (digests i)).visits i visit⟩ := by
  rw [under, Visitors.mk.injEq]
  refine ⟨if_pos rfl, funext fun j => ?_⟩
  show (if digests j = digests i then assign r.visits i visit j else .away) = _
  by_cases hj : j = i
  · rw [hj, if_pos rfl, assign_self, assign_self]
  · rw [assign_of_ne _ _ hj, assign_of_ne _ _ hj]
    rfl

/-- A step is one of those who want the same record. -/
theorem step_under (h : step? digests r i = some r') :
    (r.under digests (digests i)).Step i (r'.under digests (digests i)) := by
  obtain ⟨s, hstep, rfl⟩ := exists_of_step? h
  cases hstep with
  | come hi =>
      rw [under_assign]
      exact .come ((visits_under rfl).trans hi)
  | withdraw hi =>
      rw [under_assign]
      exact .withdraw ((visits_under rfl).trans hi)
  | release hi =>
      rw [under_assign]
      exact .release ((visits_under rfl).trans hi)

/-- For all others it changes nothing. -/
theorem under_of_ne (h : step? digests r i = some r') (hi : digests i ≠ digest) :
    r'.under digests digest = r.under digests digest := by
  rw [under, under, maps_of_ne h hi, Visitors.mk.injEq]
  refine ⟨rfl, funext fun j => ?_⟩
  by_cases hj : j = i
  · rw [if_neg (hj ▸ hi), if_neg (hj ▸ hi)]
  · rw [visits_of_ne h hj]

/-- Those who want the same record make a run of their own. -/
theorem run?_under (h : run? digests r schedule = some last) (digest : String) :
    (r.under digests digest).run? (schedule.filter fun i => digests i = digest) =
      some (last.under digests digest) := by
  induction schedule generalizing r with
  | nil =>
      obtain rfl := Option.some.inj h
      rfl
  | cons i schedule ih =>
      rw [run?, List.foldlM_cons] at h
      obtain ⟨r', hstep, hrun⟩ := Option.bind_eq_some_iff.1 h
      have hrest := ih hrun
      by_cases hi : digests i = digest
      · subst hi
        rw [List.filter_cons_of_pos (by simp), Visitors.run?, List.foldlM_cons,
          Visitors.step?_of_step (step_under hstep)]
        exact hrest
      · rw [List.filter_cons_of_neg (by simpa using hi), ← under_of_ne hstep hi]
        exact hrest

/-- What holds under a digest after a run. -/
structure Kept (digests : Nat → String) (schedule : List Nat) (r : Registry) (digest : String) :
    Prop where
  /-- Those who want the record make a run of their own. -/
  alone : Visitors.run? {} (schedule.filter fun i => digests i = digest) =
    some (r.under digests digest)
  /-- The references to a lock are those of callers, and one of the map. -/
  counted : ∀ lock, ∃ callers : Finset Nat,
    (∀ i, i ∈ callers ↔ digests i = digest ∧ (r.visits i).lock? = some lock) ∧
      (r.maps digest).references lock =
        callers.card + if (r.maps digest).entry = some lock then 1 else 0
  /-- All who are inside share the lock that is in the map. -/
  shared : ∀ i j lock lock', digests i = digest → digests j = digest →
    r.visits i = .inside lock → r.visits j = .inside lock' →
      lock = lock' ∧ (r.maps digest).entry = some lock
  /-- Nobody takes a lock off the map while another caller refers to it. -/
  unreferred : ∀ i r' lock, step? digests r i = some r' → (r.maps digest).entry = some lock →
    (r'.maps digest).entry ≠ some lock →
      digests i = digest ∧ r.visits i = .inside lock ∧
        ∀ j, j ≠ i → digests j = digest → (r.visits j).lock? ≠ some lock
  /-- When all have left, there is a lock in the map if one was left behind, and only then. -/
  stranded : (∀ i, digests i = digest → r.visits i = .away ∨ r.visits i = .left) →
    ((r.maps digest).entry ≠ none ↔
      Visitors.Stranded (schedule.filter fun i => digests i = digest) (r.under digests digest))

/-- Of any number of callers, who want any records and take their steps in any order, those who
want the same record share its lock as long as one of them is inside.  The last one out takes it
off the map, unless it withdrew before another had released. -/
theorem kept_of_run (h : run? digests {} schedule = some r) (digest : String) :
    Kept digests schedule r digest := by
  have hrun : Visitors.run? {} (schedule.filter fun i => digests i = digest) =
      some (r.under digests digest) := by
    rw [← run?_under h digest, under_start]
  have hsound := Visitors.sound_start.run hrun
  constructor
  case alone => exact hrun
  case counted =>
    intro lock
    obtain ⟨n, ⟨callers, hmem, rfl⟩, hcount⟩ := hsound.counts.counted lock
    refine ⟨callers, fun i => (hmem i).trans ?_, hcount⟩
    show ((r.under digests digest).visits i).lock? = some lock ↔ _
    by_cases hi : digests i = digest
    · rw [visits_under hi]
      exact (and_iff_right hi).symm
    · rw [visits_under_of_ne hi]
      exact iff_of_false (Option.some_ne_none lock ∘ Eq.symm) fun h => hi h.1
  case shared =>
    intro i j lock lock' hi hj hvi hvj
    rw [← visits_under hi] at hvi
    rw [← visits_under hj] at hvj
    exact ⟨hsound.inside_unique hvi hvj, hsound.shared i lock hvi⟩
  case unreferred =>
    intro i r' lock hstep hentry hgone
    by_cases hi : digests i = digest
    · subst hi
      obtain ⟨hvisit, hothers⟩ := hsound.taken_off (step_under hstep) hentry hgone
      refine ⟨rfl, (visits_under rfl).symm.trans hvisit, fun j hne hj => ?_⟩
      rw [← visits_under hj]
      exact hothers j hne
    · rw [maps_of_ne hstep hi] at hgone
      exact absurd hentry hgone
  case stranded =>
    intro hleft
    refine Visitors.entry_ne_none_iff hrun (Visitors.Settled.quiet fun i => ?_)
    by_cases hi : digests i = digest
    · rw [visits_under hi]
      exact hleft i hi
    · exact .inl (visits_under_of_ne hi)

end Registry

namespace Together

/-- Two callers want one record and a third one wants another. -/
def digests (caller : Nat) : String := if caller = 2 then "e" else "d"

/-- All three come, then all withdraw, and then all release. -/
def schedule : List Nat := [0, 1, 2, 0, 1, 2, 0, 1, 2]

/-- Where it ends. -/
def last : Registry := (Registry.run? digests {} schedule).getD {}

theorem run_schedule : Registry.run? digests {} schedule = some last := rfl

theorem visits_last : ∀ i, last.visits i = .away ∨ last.visits i = .left
  | 0 | 1 | 2 => .inr rfl
  | _ + 3 => .inl rfl

/-- All have left.  The lock of the one is off the map, that of the two is not. -/
theorem lock_left_behind :
    Registry.run? digests {} schedule = some last ∧
      (∀ i, last.visits i = .away ∨ last.visits i = .left) ∧
      (last.maps "e").entry = none ∧ (last.maps "d").entry = some 0 :=
  ⟨run_schedule, visits_last, rfl, rfl⟩

/-- The two were inside together, and the second withdrew before the first had released. -/
theorem withdrawn_together :
    Registry.run? digests {} schedule = some last ∧
      Visitors.Stranded [0, 1, 0, 1, 0, 1] (last.under digests "d") ∧
      ¬ Visitors.Stranded [2, 2, 2] (last.under digests "e") := by
  have htwo := Registry.kept_of_run run_schedule "d"
  have hone := Registry.kept_of_run run_schedule "e"
  refine ⟨run_schedule, ?_, ?_⟩
  · exact (htwo.stranded fun i _ => visits_last i).1 (Option.some_ne_none 0)
  · exact fun h => (hone.stranded fun i _ => visits_last i).2 h rfl

end Together

end ArchiveMount

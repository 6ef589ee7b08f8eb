/-
# `ArchiveMount.Proofs.Object.RouteQueue` — who queues for a route, and what they get

Without call-offs the callers that wait for one container have their turns in the order in
which they joined.  `InOrder` says how far they have come: some have run a resolver that
failed, and then either there is no route yet, or the next one has found it and all the
others get it.  Every step keeps this (`InOrder.step`), and when the calls are over it says
what each caller has got (`InOrder.served`), which is what `RouteCache.resolveQueue` answers
(`run_resolveQueue`).
-/
import ArchiveMount.Object.Routes
import ArchiveMount.Proofs.Object.Resolution

namespace ArchiveMount

variable {ρ ε : Type}

/-! ## The queue of a cache that is alone -/

namespace RouteCache

/-- A resolver that gives these outcomes one after the other. -/
def inTurn (outcome : Nat → Except ε ρ) : Attempt Nat ε ρ := fun m => (outcome m, m + 1)

variable {outcome : Nat → Except ε ρ} {c : String} {cache : RouteCache ρ}

theorem resolveQueue_of_some {σ : Type} {resolver : Attempt σ ε ρ} {r : ρ}
    (hc : cache.get? c = some r) (n : Nat) (s : σ) :
    resolveQueue c resolver n (s, cache) = (List.replicate n (.ok r), s, cache) := by
  induction n with
  | zero => rfl
  | succ n ih =>
      have hone : resolve c resolver (s, cache) = (.ok r, s, cache) := by simp only [resolve, hc]
      simp only [resolveQueue, hone, ih, List.replicate_succ]

/-- Every caller up to the first success gets the outcome of its own resolver, and all others
get the route; no more resolvers run than that takes. -/
theorem resolveQueue_inTurn {k : Nat} (hbefore : ∀ m < k, ∃ e, outcome m = .error e) (n : Nat) :
    ∀ m ≤ k, cache.get? c = none → (k < m + n → ∃ r, outcome k = .ok r) →
      let run := resolveQueue c (inTurn outcome) n (m, cache)
      run.1 = (List.range' m n).map (fun j => outcome (min j k)) ∧
        run.2.1 = min (k + 1) (m + n) ∧
        run.2.2.get? c = if k < m + n then (outcome k).toOption else none := by
  induction n with
  | zero =>
      intro m hm hc _
      refine ⟨rfl, ?_, ?_⟩
      · show m = _
        omega
      · rw [if_neg (by omega)]
        exact hc
  | succ n ih =>
      intro m hm hc hfirst
      rcases Nat.lt_or_eq_of_le hm with hlt | rfl
      · obtain ⟨e, he⟩ := hbefore m hlt
        have hone : resolve c (inTurn outcome) (m, cache) = (.error e, m + 1, cache) := by
          simp only [resolve, hc, inTurn, he]
        obtain ⟨hanswers, hruns, hroute⟩ := ih (m + 1) hlt hc fun h => hfirst (by omega)
        simp only [resolveQueue, hone]
        refine ⟨?_, ?_, ?_⟩
        · rw [List.range'_succ, List.map_cons, Nat.min_eq_left hm, he]
          exact congrArg _ hanswers
        · rw [hruns]
          omega
        · rw [hroute, show m + 1 + n = m + (n + 1) by omega]
      · obtain ⟨r, hr⟩ := hfirst (by omega)
        have hone : resolve c (inTurn outcome) (m, cache) =
            (.ok r, m + 1, cache.insert c r) := by
          simp only [resolve, hc, inTurn, hr]
        have hc' := get?_insert_self r hc
        simp only [resolveQueue, hone, resolveQueue_of_some hc']
        refine ⟨?_, by omega, ?_⟩
        · rw [List.range'_succ, List.map_cons, Nat.min_self, hr]
          refine congrArg _ (List.eq_replicate_iff.2 ⟨by simp, ?_⟩).symm
          intro b hb
          obtain ⟨j, hj, rfl⟩ := List.mem_map.1 hb
          rw [List.mem_range'_1] at hj
          rw [Nat.min_eq_right (by omega), hr]
        · rw [if_pos (by omega), hr, hc']
          rfl

end RouteCache

/-- Whether a caller has joined a queue, or need not join one any more. -/
def RouteCaller.joined : RouteCaller ρ ε → Bool
  | .arriving | .entered | .looking | .seen _ => false
  | .waiting | .resolving | .done _ | .calledOff => true

namespace Resolution

variable {requests : Nat → RouteRequest} {schedule : List (Nat × RouteMove ρ ε)}
  {s s' : Resolution ρ ε} {i : Nat} {c : String} {move : RouteMove ρ ε}

/-! ## Who has joined -/

/-- Everybody joins the queue of its own container, and once. -/
structure Joined (requests : Nat → RouteRequest) (s : Resolution ρ ε) : Prop where
  nodup : ∀ c, (s.cells c).arrivals.Nodup
  own : ∀ c, ∀ i ∈ (s.cells c).arrivals, (requests i).container = c
  joined : ∀ c, ∀ i ∈ (s.cells c).arrivals, (s.callers i).joined = true

/-- A caller that has joined remains one that has. -/
theorem joined_of_joined (h : Step s i c move s') {j : Nat} (hj : (s.callers j).joined = true) :
    (s'.callers j).joined = true := by
  by_cases hji : j = i
  · subst hji
    cases h with
    | enter hi | hit hi | enqueue hi | look hi =>
        rw [hi] at hj
        cases hj
    | hitLate | begin | giveUp | succeed | fail | abandon =>
        rw [callers_put_self]
        rfl
  · rw [callers_of_ne h hji]
    exact hj

/-- What becomes of the list of those who have joined. -/
theorem arrivals_step (h : Step s i c move s') (other : String) :
    (s'.cells other).arrivals = (s.cells other).arrivals ∨
      other = c ∧ s.callers i = .entered ∧ s'.callers i = .waiting ∧
        (s'.cells other).arrivals = (s.cells other).arrivals ++ [i] := by
  by_cases ho : other = c
  · subst ho
    cases h with
    | enqueue hi =>
        right
        rw [cells_put_self, callers_put_self]
        exact ⟨rfl, hi, rfl, rfl⟩
    | enter | hit | hitLate | begin | giveUp | succeed | fail | abandon | look =>
        left
        rw [cells_put_self]
  · rw [cells_of_ne h ho]
    exact .inl rfl

theorem joined_start : Joined requests (start ρ ε requests) where
  nodup := fun _ => List.nodup_nil
  own := fun _ _ h => nomatch h
  joined := fun _ _ h => nomatch h

theorem Joined.step (hj : Joined requests s) (h : Step s i (requests i).container move s') :
    Joined requests s' := by
  have hold : ∀ c, ∀ j ∈ (s.cells c).arrivals, (s'.callers j).joined = true :=
    fun c j hmem => joined_of_joined h (hj.joined c j hmem)
  constructor
  case nodup =>
    intro c
    rcases arrivals_step h c with heq | ⟨-, hi, -, heq⟩ <;> rw [heq]
    · exact hj.nodup c
    · refine List.nodup_append.2 ⟨hj.nodup c, List.nodup_singleton i, ?_⟩
      rintro j hmem k hk rfl
      rw [List.mem_singleton.1 hk] at hmem
      have hjoined := hj.joined c i hmem
      rw [hi] at hjoined
      cases hjoined
  case own =>
    intro c j hmem
    rcases arrivals_step h c with heq | ⟨rfl, -, -, heq⟩ <;> rw [heq] at hmem
    · exact hj.own c j hmem
    · rcases List.mem_append.1 hmem with hmem | hmem
      · exact hj.own _ j hmem
      · rw [List.mem_singleton.1 hmem]
  case joined =>
    intro c j hmem
    rcases arrivals_step h c with heq | ⟨-, -, hi', heq⟩ <;> rw [heq] at hmem
    · exact hold c j hmem
    · rcases List.mem_append.1 hmem with hmem | hmem
      · exact hold c j hmem
      · rw [List.mem_singleton.1 hmem, hi']
        rfl

/-! ## How far they have come -/

/-- How resolvers end that fail. -/
def failures (failed : List (Nat × ε)) : List (Nat × Except ε ρ) :=
  failed.map fun x => (x.1, .error x.2)

/-- The callers that joined for `c`, first to last: those whose resolvers failed, and then who is
at it and who waits, or who found the route and who gets it. -/
inductive InOrder (s : Resolution ρ ε) (c : String) (ends : List (Nat × Except ε ρ)) : Prop
  | pending (failed : List (Nat × ε)) (hroute : (s.cells c).route = none)
      (harr : (s.cells c).arrivals =
        failed.map Prod.fst ++ ((s.cells c).resolver.toList ++ (s.cells c).queue))
      (herr : ∀ x ∈ failed, s.callers x.1 = .done (.error x.2))
      (hends : ends = failures failed)
      (hruns : (s.cells c).runs = failed.length + (s.cells c).resolver.toList.length)
  | settled (failed : List (Nat × ε)) (first : Nat) (later : List Nat) (r : ρ)
      (hroute : (s.cells c).route = some r)
      (harr : (s.cells c).arrivals = failed.map Prod.fst ++ first :: later)
      (herr : ∀ x ∈ failed, s.callers x.1 = .done (.error x.2))
      (hfirst : s.callers first = .done (.ok r))
      (hlater : ∀ j ∈ later, s.callers j = .waiting ∨ s.callers j = .done (.ok r))
      (hends : ends = failures failed ++ [(first, .ok r)])
      (hruns : (s.cells c).runs = failed.length + 1)

/-- A result stays. -/
theorem done_of_done (h : Step s i c move s') {j : Nat} {result : Except ε ρ}
    (hj : s.callers j = .done result) : s'.callers j = .done result := by
  have hji : j ≠ i := by
    rintro rfl
    cases h with
    | enter hi | hit hi | enqueue hi | hitLate hi | begin hi | giveUp hi | succeed hi | fail hi
    | abandon hi | look hi => cases hi.symm.trans hj
  rw [callers_of_ne h hji]
  exact hj

/-- Who waits for a route that is there gets it, unless it is called off. -/
theorem waiting_or_done (h : Step s i (requests i).container move s') {j : Nat} {r : ρ}
    (hr : (s.cells (requests j).container).route = some r)
    (hmove : (requests i).container = (requests j).container → move ≠ .callOff)
    (hj : s.callers j = .waiting ∨ s.callers j = .done (.ok r)) :
    s'.callers j = .waiting ∨ s'.callers j = .done (.ok r) := by
  rcases hj with hj | hj
  · by_cases hji : j = i
    · subst hji
      cases h with
      | hitLate hi hr' =>
          rw [callers_put_self, Option.some.inj (hr'.symm.trans hr)]
          exact .inr rfl
      | begin hi hr' => cases hr'.symm.trans hr
      | giveUp hi => exact absurd rfl (hmove rfl)
      | enter hi | hit hi | enqueue hi | succeed hi | fail hi | abandon hi | look hi =>
          cases hi.symm.trans hj
    · rw [callers_of_ne h hji]
      exact .inl hj
  · exact .inr (done_of_done h hj)

section Step

variable {ends : List (Nat × Except ε ρ)}

/-- A step that leaves cell and outcomes as they are. -/
theorem InOrder.same (ho : InOrder s c ends) (hj : Joined requests s)
    (h : Step s i (requests i).container move s')
    (hmove : (requests i).container = c → move ≠ .callOff)
    (hroute : (s'.cells c).route = (s.cells c).route)
    (harr' : (s'.cells c).arrivals = (s.cells c).arrivals)
    (hqueue : (s.cells c).route = none → (s'.cells c).queue = (s.cells c).queue)
    (hresolver : (s'.cells c).resolver = (s.cells c).resolver)
    (hruns' : (s'.cells c).runs = (s.cells c).runs) : InOrder s' c ends := by
  cases ho with
  | pending failed hnone harr herr hends hruns =>
      refine .pending failed (hroute.trans hnone) ?_ (fun x hx => done_of_done h (herr x hx))
        hends ?_
      · rw [harr', hqueue hnone, hresolver, harr]
      · rw [hruns', hresolver, hruns]
  | settled failed first later r hsome harr herr hfirst hlater hends hruns =>
      refine .settled failed first later r (hroute.trans hsome) (harr'.trans harr)
        (fun x hx => done_of_done h (herr x hx)) (done_of_done h hfirst) ?_ hends
        (hruns'.trans hruns)
      intro j hmem
      have hown := hj.own c j (by simp [harr, hmem])
      subst hown
      exact waiting_or_done h hsome hmove (hlater j hmem)

/-- Nobody resolves a route that is there. -/
theorem InOrder.pending_of_none (ho : InOrder s c ends) (hr : (s.cells c).route = none) :
    ∃ failed : List (Nat × ε), (s.cells c).arrivals =
        failed.map Prod.fst ++ ((s.cells c).resolver.toList ++ (s.cells c).queue) ∧
      (∀ x ∈ failed, s.callers x.1 = .done (.error x.2)) ∧ ends = failures failed ∧
      (s.cells c).runs = failed.length + (s.cells c).resolver.toList.length := by
  cases ho with
  | pending failed _ harr herr hends hruns => exact ⟨failed, harr, herr, hends, hruns⟩
  | settled _ _ _ _ hsome => cases hr.symm.trans hsome

theorem outcome?_resolved (i : Nat) (result : Except ε ρ) :
    outcome? requests (requests i).container (i, .resolved result) = some (i, result) :=
  if_pos rfl

/-- Every step but a call-off is the turn of somebody in the order of the queue. -/
theorem InOrder.step (ho : InOrder s c ends) (hs : Sound requests s) (hj : Joined requests s)
    (h : Step s i (requests i).container move s')
    (hmove : (requests i).container = c → move ≠ .callOff) :
    InOrder s' c (ends ++ (outcome? requests c (i, move)).toList) := by
  by_cases hc : (requests i).container = c
  case neg =>
    have hnone : outcome? requests c (i, move) = none := by
      cases move <;> simp [outcome?, hc]
    have hcell := cells_of_ne h (Ne.symm hc)
    rw [hnone, Option.toList_none, List.append_nil]
    exact ho.same hj h hmove (by rw [hcell]) (by rw [hcell]) (fun _ => by rw [hcell])
      (by rw [hcell]) (by rw [hcell])
  case pos =>
    subst hc
    have hgo : outcome? requests (requests i).container (i, (.go : RouteMove ρ ε)) = none := rfl
    have hstep := h
    cases h with
    | giveUp | abandon => exact absurd rfl (hmove rfl)
    | enter hi | hit hi | look hi =>
        rw [hgo, Option.toList_none, List.append_nil]
        exact ho.same hj hstep hmove (by rw [cells_put_self]) (by rw [cells_put_self])
          (fun _ => by rw [cells_put_self]) (by rw [cells_put_self]) (by rw [cells_put_self])
    | hitLate hi hr =>
        rw [hgo, Option.toList_none, List.append_nil]
        exact ho.same hj hstep hmove (by rw [cells_put_self]) (by rw [cells_put_self])
          (fun hnone => by cases hnone.symm.trans hr) (by rw [cells_put_self])
          (by rw [cells_put_self])
    | enqueue hi hr =>
        obtain ⟨failed, harr, herr, hends, hruns⟩ := ho.pending_of_none hr
        rw [hgo, Option.toList_none, List.append_nil]
        refine .pending failed ?_ ?_ (fun x hx => done_of_done hstep (herr x hx)) hends ?_
        · rw [cells_put_self]
          exact hr
        · rw [cells_put_self, harr]
          simp
        · rw [cells_put_self]
          exact hruns
    | begin hi hr hfree hfirst =>
        obtain ⟨failed, harr, herr, hends, hruns⟩ := ho.pending_of_none hr
        obtain ⟨rest, hqueue⟩ := List.head?_eq_some_iff.1 hfirst
        rw [hgo, Option.toList_none, List.append_nil]
        refine .pending failed ?_ ?_ (fun x hx => done_of_done hstep (herr x hx)) hends ?_
        · rw [cells_put_self]
          exact hr
        · rw [cells_put_self, harr, hfree, hqueue]
          rfl
        · rw [cells_put_self, hruns, hfree]
          rfl
    | succeed hi =>
        obtain ⟨failed, harr, herr, hends, hruns⟩ := ho.pending_of_none (hs.route_of_resolving hi)
        have hresolver := (hs.resolver i _).1 ⟨rfl, hi⟩
        rw [outcome?_resolved, Option.toList_some, hends]
        refine .settled failed i (s.cells (requests i).container).queue _ (by rw [cells_put_self])
          ?_ (fun x hx => done_of_done hstep (herr x hx)) (callers_put_self ..) ?_ rfl ?_
        · rw [cells_put_self, harr, hresolver]
          rfl
        · -- who waits has not moved
          intro j hmem
          have hwait := ((hs.queued j _).1 hmem).2
          left
          rw [callers_of_ne hstep (by rintro rfl; cases hi.symm.trans hwait)]
          exact hwait
        · rw [cells_put_self, hruns, hresolver]
          rfl
    | @fail e hi =>
        have hr := hs.route_of_resolving hi
        obtain ⟨failed, harr, herr, hends, hruns⟩ := ho.pending_of_none hr
        have hresolver := (hs.resolver i _).1 ⟨rfl, hi⟩
        rw [outcome?_resolved, Option.toList_some, hends]
        refine .pending (failed ++ [(i, e)]) ?_ ?_ ?_ (by simp [failures]) ?_
        · rw [cells_put_self]
          exact hr
        · rw [cells_put_self, harr, hresolver]
          simp
        · intro x hx
          rcases List.mem_append.1 hx with hx | hx
          · exact done_of_done hstep (herr x hx)
          · rw [List.mem_singleton.1 hx]
            exact callers_put_self ..
        · rw [cells_put_self, hruns, hresolver]
          simp

end Step

/-- A run in which nobody who asks for `c` is called off. -/
theorem inOrder_run (h : (start ρ ε requests).run? requests schedule = some s)
    (hstay : ∀ m ∈ schedule, (requests m.1).container = c → m.2 ≠ .callOff) :
    Joined requests s ∧ InOrder s c (outcomes requests c schedule) := by
  refine (run?_induction (P := fun before a => Sound requests a ∧ Joined requests a ∧
    InOrder a c (outcomes requests c before)) h ⟨sound_start requests, joined_start,
      .pending [] rfl rfl (fun _ hx => nomatch hx) rfl rfl⟩ ?_).2
  rintro before a ⟨i, move⟩ b ⟨hs, hj, ho⟩ hm hb
  have hstep := step_of_step? hb
  rw [outcomes_concat]
  exact ⟨hs.step hstep, hj.step hstep, ho.step hs hj hstep (hstay _ hm)⟩

/-! ## What they get -/

/-- What those get who have queued for `c`, if the resolvers give these outcomes one after the
other, of which the one with number `k` is the first success: their own, or that success. -/
structure Served (s : Resolution ρ ε) (c : String) (outcome : Nat → Except ε ρ) (k : Nat) :
    Prop where
  runs : (s.cells c).runs = min (k + 1) (s.cells c).arrivals.length
  answers : ∀ m i, (s.cells c).arrivals[m]? = some i → s.callers i = .done (outcome (min m k))
  route : (s.cells c).route =
    if k < (s.cells c).arrivals.length then (outcome k).toOption else none

section Served

variable {outcome : Nat → Except ε ρ} {k : Nat} {failed : List (Nat × ε)}
  {ends tail : List (Nat × Except ε ρ)}

theorem outcome_of_failed (hends : ends = failures failed ++ tail)
    (hout : ∀ m x, ends[m]? = some x → x.2 = outcome m) {m : Nat} (hm : m < failed.length) :
    outcome m = .error failed[m].2 := by
  refine (hout m (failed[m].1, .error failed[m].2) ?_).symm
  rw [hends, List.getElem?_append_left (by rw [failures, List.length_map]; exact hm), failures,
    List.getElem?_map, List.getElem?_eq_getElem hm]
  rfl

/-- There is no success among the outcomes of those who failed. -/
theorem failed_length_le (hends : ends = failures failed ++ tail)
    (hout : ∀ m x, ends[m]? = some x → x.2 = outcome m) {n : Nat} (hle : failed.length ≤ n)
    (hfirst : k < n → ∃ r, outcome k = .ok r) : failed.length ≤ k := by
  refine Nat.le_of_not_lt fun hlt => ?_
  obtain ⟨r, hr⟩ := hfirst (Nat.lt_of_lt_of_le hlt hle)
  exact nomatch hr.symm.trans (outcome_of_failed hends hout hlt)

/-- Those whose resolvers have failed get their own errors. -/
theorem answer_of_failed {arrivals rest : List Nat} (harr : arrivals = failed.map Prod.fst ++ rest)
    (herr : ∀ x ∈ failed, s.callers x.1 = .done (.error x.2))
    (hends : ends = failures failed ++ tail)
    (hout : ∀ m x, ends[m]? = some x → x.2 = outcome m) {m i : Nat}
    (hi : arrivals[m]? = some i) (hm : m < failed.length) : s.callers i = .done (outcome m) := by
  have hfst : i = failed[m].1 := by
    rw [harr, List.getElem?_append_left (by rw [List.length_map]; exact hm), List.getElem?_map,
      List.getElem?_eq_getElem hm] at hi
    exact (Option.some.inj hi).symm
  rw [outcome_of_failed hends hout hm, hfst]
  exact herr _ (List.getElem_mem hm)

/-- Whose call is over neither resolves nor waits. -/
theorem nobody_left (hs : Sound requests s)
    (hdone : ∀ i ∈ (s.cells c).resolver.toList ++ (s.cells c).queue,
      ∃ result, s.callers i = .done result) :
    (s.cells c).resolver.toList ++ (s.cells c).queue = [] := by
  refine List.eq_nil_iff_forall_not_mem.2 fun i hi => ?_
  obtain ⟨result, hresult⟩ := hdone i hi
  rcases List.mem_append.1 hi with hi | hi
  · cases hresult.symm.trans ((hs.resolver i c).2 (Option.mem_toList.1 hi)).2
  · cases hresult.symm.trans ((hs.queued i c).1 hi).2

theorem InOrder.served (ho : InOrder s c ends) (hs : Sound requests s)
    (hdone : ∀ i ∈ (s.cells c).arrivals, ∃ result, s.callers i = .done result)
    (hout : ∀ m x, ends[m]? = some x → x.2 = outcome m)
    (hbefore : ∀ m < k, ∃ e, outcome m = .error e)
    (hfirst : k < (s.cells c).arrivals.length → ∃ r, outcome k = .ok r) :
    s.Served c outcome k := by
  cases ho with
  | pending failed hnone harr herr hends hruns =>
      have hleft := nobody_left hs fun i hi => hdone i (harr ▸ List.mem_append_right _ hi)
      have hresolver : (s.cells c).resolver.toList = [] := (List.append_eq_nil_iff.1 hleft).1
      rw [hleft] at harr
      rw [← List.append_nil (failures failed)] at hends
      have hlen : (s.cells c).arrivals.length = failed.length := by simp [harr]
      have hk := failed_length_le hends hout (Nat.le_of_eq hlen.symm) hfirst
      refine ⟨?_, fun m i hi => ?_, ?_⟩
      · rw [hruns, hresolver, hlen, Nat.min_eq_right (by omega)]
        rfl
      · have hm := (List.getElem?_eq_some_iff.1 hi).1
        rw [Nat.min_eq_left (by omega)]
        exact answer_of_failed harr herr hends hout hi (hlen ▸ hm)
      · rw [if_neg (by omega), hnone]
  | settled failed first later r hsome harr herr hfirst' hlater hends hruns =>
      have hlen : (s.cells c).arrivals.length = failed.length + (later.length + 1) := by
        simp [harr]
      have hle := failed_length_le hends hout (by omega) hfirst
      have hok : outcome failed.length = .ok r := by
        refine (hout failed.length (first, .ok r) ?_).symm
        rw [hends, List.getElem?_append_right (by simp [failures])]
        simp [failures]
      have hge : k ≤ failed.length := by
        refine Nat.le_of_not_lt fun hlt => ?_
        obtain ⟨e, he⟩ := hbefore _ hlt
        exact nomatch hok.symm.trans he
      obtain rfl := Nat.le_antisymm hge hle
      refine ⟨by rw [hruns, Nat.min_eq_left (by omega)], fun m i hi => ?_, ?_⟩
      · rcases Nat.lt_or_ge m failed.length with hm | hm
        · rw [Nat.min_eq_left (Nat.le_of_lt hm)]
          exact answer_of_failed harr herr hends hout hi hm
        · rw [Nat.min_eq_right hm, hok]
          have hmem := List.mem_of_getElem? hi
          rw [harr, List.getElem?_append_right (by rw [List.length_map]; exact hm)] at hi
          rcases List.mem_cons.1 (List.mem_of_getElem? hi) with rfl | hlatermem
          · exact hfirst'
          · obtain ⟨result, hresult⟩ := hdone i hmem
            rcases hlater i hlatermem with hwait | hr
            · cases hwait.symm.trans hresult
            · exact hr
      · rw [if_pos (by omega), hok, hsome]
        rfl

/-- The queue of a cache that is alone, with these outcomes, comes to the same. -/
theorem Served.replay (hserved : s.Served c outcome k)
    (hbefore : ∀ m < k, ∃ e, outcome m = .error e)
    (hfirst : k < (s.cells c).arrivals.length → ∃ r, outcome k = .ok r) :
    let run := RouteCache.resolveQueue c (RouteCache.inTurn outcome)
      (s.cells c).arrivals.length (0, {})
    (s.cells c).arrivals.map s.callers = run.1.map .done ∧ (s.cells c).runs = run.2.1 ∧
      (s.cells c).route = run.2.2.get? c := by
  obtain ⟨hanswers, hruns, hroute⟩ := RouteCache.resolveQueue_inTurn hbefore
    (s.cells c).arrivals.length 0 (Nat.zero_le k) (show RouteCache.get? {} c = none from rfl)
    (by simpa using hfirst)
  rw [Nat.zero_add] at hruns hroute
  refine ⟨?_, hserved.runs.trans hruns.symm, hserved.route.trans hroute.symm⟩
  rw [hanswers]
  refine List.ext_getElem? fun m => ?_
  rw [List.getElem?_map, List.getElem?_map, List.getElem?_map]
  cases hi : (s.cells c).arrivals[m]? with
  | none =>
      rw [List.getElem?_eq_none_iff] at hi
      rw [List.getElem?_eq_none (by simpa using hi)]
      rfl
  | some i =>
      have hm := (List.getElem?_eq_some_iff.1 hi).1
      rw [List.getElem?_range' hm]
      simp [hserved.answers m i hi]

end Served

/-- Callers that want routes, any number of them and for any containers, moving in any order and
called off wherever they wait. -/
theorem resolved_once (requests : Nat → RouteRequest) (schedule : List (Nat × RouteMove ρ ε))
    (s : Resolution ρ ε) (h : (start ρ ε requests).run? requests schedule = some s) :
    -- one resolver at a time for each container
    (∀ i j, (requests i).container = (requests j).container → s.callers i = .resolving →
      s.callers j = .resolving → i = j) ∧
    -- one success at most, which stays, and no resolver after it
    (∀ c, successes requests c schedule = (s.cells c).route.toList) ∧
    (∀ c r, (s.cells c).route = some r → ∀ later s', s.run? requests later = some s' →
      (s'.cells c).route = some r ∧ (s'.cells c).runs = (s.cells c).runs ∧
        ∀ i, (requests i).container = c → s'.callers i ≠ .resolving) ∧
    -- a route is that of the one success, and an error one's own
    (∀ i r, s.callers i = .done (.ok r) ∨ s.callers i = .seen (some r) →
      successes requests (requests i).container schedule = [r]) ∧
    (∀ i e, s.callers i = .done (.error e) → (i, .resolved (.error e)) ∈ schedule) ∧
    -- a failure leaves things as they are
    (∀ i e s', s.step? requests i (.resolved (.error e)) = some s' →
      (s'.cells (requests i).container).route = none ∧
        ∀ c, (s'.cells c).route = (s.cells c).route) ∧
    -- for a container the callers for others might as well not be there
    (∀ c, ∃ t, (start ρ ε requests).run? requests
        (schedule.filter fun m => (requests m.1).container = c) = some t ∧ Alike requests c s t) ∧
    -- the size counts the containers with a success
    (∃ resolved : List String, resolved.Nodup ∧
      (∀ c, c ∈ resolved ↔ successes requests c schedule ≠ []) ∧ s.size = resolved.length) ∧
    -- in the order of the queue
    (∀ c, (∀ m ∈ schedule, (requests m.1).container = c → m.2 ≠ .callOff) →
      (s.cells c).arrivals.Nodup ∧
      ∀ (outcome : Nat → Except ε ρ) (k : Nat),
        (∀ m x, (outcomes requests c schedule)[m]? = some x → x.2 = outcome m) →
        (∀ m < k, ∃ e, outcome m = .error e) →
        (k < (s.cells c).arrivals.length → ∃ r, outcome k = .ok r) →
        (∀ i ∈ (s.cells c).arrivals, ∃ result, s.callers i = .done result) →
        s.Served c outcome k ∧
          let run := RouteCache.resolveQueue c (RouteCache.inTurn outcome)
            (s.cells c).arrivals.length (0, {})
          (s.cells c).arrivals.map s.callers = run.1.map .done ∧ (s.cells c).runs = run.2.1 ∧
            (s.cells c).route = run.2.2.get? c) := by
  obtain ⟨hs, hh⟩ := history_run h
  refine ⟨fun i j => hs.resolver_unique, hh.successes, fun c r hr later s' hlater => ?_,
    fun i r hi => ?_, hh.failed, fun i e s' hfail => ?_, fun c => run?_restrict c h,
    exists_resolved hs hh, fun c hstay => ?_⟩
  · obtain ⟨hr', hruns⟩ := route_run hlater hs hr
    refine ⟨hr', hruns, fun i hi hresolving => ?_⟩
    subst hi
    exact nomatch ((sound_run hlater hs).route_of_resolving hresolving).symm.trans hr'
  · rw [hh.successes, hs.answered i r hi]
    rfl
  · have hstep := step_of_step? hfail
    have hsame := route_of_fail hstep
    cases hstep with
    | fail hi => exact ⟨(hsame _).trans (hs.route_of_resolving hi), hsame⟩
  · obtain ⟨hj, ho⟩ := inOrder_run h hstay
    refine ⟨hj.nodup c, fun outcome k hout hbefore hfirst hdone => ?_⟩
    have hserved := ho.served hs hdone hout hbefore hfirst
    exact ⟨hserved, hserved.replay hbefore hfirst⟩

end Resolution

/-! Three callers queue up for a container; the resolver of the first fails, and that of the second
does not.  Another container is resolved meanwhile, and somebody looks. -/
namespace Resolution.ThreeCallers

def requests (i : Nat) : RouteRequest :=
  if i < 3 then .resolve "a" else if i = 3 then .resolve "b" else .get "a"

def schedule : List (Nat × RouteMove Nat String) :=
  [(0, .go), (1, .go), (0, .go), (4, .go), (1, .go), (0, .go), (2, .go), (2, .go), (3, .go),
    (3, .go), (0, .resolved (.error "gone")), (3, .go), (1, .go), (3, .resolved (.ok 9)),
    (1, .resolved (.ok 7)), (2, .go), (5, .go)]

def outcome (m : Nat) : Except String Nat := if m = 0 then .error "gone" else .ok 7

/-- The calls of all are over. -/
theorem calls_over : ∃ s, (start Nat String requests).run? requests schedule = some s ∧
    (s.cells "a").arrivals = [0, 1, 2] ∧
    outcomes requests "a" schedule = [(0, .error "gone"), (1, .ok 7)] ∧
    s.callers 0 = .done (.error "gone") ∧ s.callers 1 = .done (.ok 7) ∧
    s.callers 2 = .done (.ok 7) ∧ s.callers 4 = .seen none ∧ s.callers 5 = .seen (some 7) :=
  ⟨_, rfl, rfl, rfl, rfl, rfl, rfl, rfl, rfl⟩

/-- Two resolvers have run for three callers, and who looked at the end has seen the route. -/
theorem two_resolvers_run : ∃ s, (start Nat String requests).run? requests schedule = some s ∧
    (s.cells "a").arrivals.length = 3 ∧ (s.cells "a").runs = 2 ∧
    successes requests "a" schedule = [7] ∧ s.Served "a" outcome 1 := by
  obtain ⟨s, hrun, harr, hends, hzero, hone, htwo, -, hseen⟩ := calls_over
  obtain ⟨-, -, -, hroute, -, -, -, -, hqueue⟩ := resolved_once requests schedule s hrun
  have hserved : s.Served "a" outcome 1 := by
    refine ((hqueue "a" (by simp [schedule])).2 outcome 1 (fun m x hx => ?_) (fun m hm => ?_)
      (fun _ => ⟨7, rfl⟩) fun i hi => ?_).1
    · rw [hends] at hx
      match m with
      | 0 => exact Option.some.inj hx ▸ rfl
      | 1 => exact Option.some.inj hx ▸ rfl
      | m + 2 => cases hx
    · obtain rfl := Nat.lt_one_iff.1 hm
      exact ⟨"gone", rfl⟩
    · rw [harr] at hi
      simp only [List.mem_cons, List.not_mem_nil, or_false] at hi
      rcases hi with rfl | rfl | rfl
      · exact ⟨_, hzero⟩
      · exact ⟨_, hone⟩
      · exact ⟨_, htwo⟩
  refine ⟨s, hrun, by rw [harr]; rfl, ?_, hroute 5 7 (.inr hseen), hserved⟩
  rw [hserved.runs, harr]
  rfl

end Resolution.ThreeCallers

end ArchiveMount

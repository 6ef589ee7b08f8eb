/-
# `ArchiveMount.Proofs.Service.Lifecycle` — where a service stands

`Stands` lists the moments of a service: for each phase the events that have led to it, the
cache directory in use, and what its tokens and its adapter are like.  It holds at the
beginning and a turn of whatever kind keeps it (`Stands.step`), so it holds after any
turns in any order (`stands_follow`).  What events tell of stages, reports, sockets and
directories is read off it in `ArchiveMount.Proofs.Service.Orderly`.
-/
import ArchiveMount.Proofs.Attempt
import ArchiveMount.Service.Lifecycle

namespace ArchiveMount

namespace Service

variable {s : Outcomes} {c : ServiceConfig} {r : ServiceRecord} {l l' : Life}

/-! ## Steps -/

@[simp] theorem run_note (e : ServiceEvent) (r : ServiceRecord) :
    (note e).run r = (.ok (), { r with events := r.events ++ [e] }) := rfl

@[simp] theorem run_enter (stage : Stage) (r : ServiceRecord) :
    (enter stage).run r = (.ok (), { r with events := r.events ++ [.entered stage] }) := rfl

@[simp] theorem run_tellToStop (r : ServiceRecord) :
    tellToStop.run r = (.ok (), { r with stop := true }) := rfl

@[simp] theorem run_startTask (r : ServiceRecord) :
    startTask.run r = (.ok (), { r with adapter := .running }) := rfl

/-- What is noted when a directory is removed. -/
def removal (s : Outcomes) : CacheDir → List ServiceEvent
  | .kept _ => []
  | .temporary path =>
    match s.removeDirectory path with
    | .ok _ => [.removedCache path]
    | .error _ => []

theorem run_remove (s : Outcomes) (dir : CacheDir) (r : ServiceRecord) :
    ∃ failure, (remove s dir).run r =
      (.ok failure, { r with events := r.events ++ removal s dir }) := by
  cases dir with
  | kept path => exact ⟨none, by simp [remove, removal, Attempt.run_pure]⟩
  | temporary path =>
      simp only [remove, removal]
      cases s.removeDirectory path with
      | ok _ => exact ⟨none, rfl⟩
      | error e => exact ⟨some (.cleanup path e), by simp [Attempt.run_pure]⟩

/-- What is noted when the directory in use is put away, if there is one. -/
def putAway (s : Outcomes) : Option CacheDir → List ServiceEvent
  | some dir => removal s dir
  | none => []

theorem run_cleanup (s : Outcomes) (r : ServiceRecord) :
    ∃ failure, (cleanup s).run r =
      (.ok failure, { r with events := r.events ++ putAway s r.cacheDir }) := by
  obtain ⟨events, dir, told, stop, adapter⟩ := r
  cases dir with
  | none => exact ⟨none, by simp [cleanup, putAway, Attempt.run_bind, Attempt.run_pure]⟩
  | some dir => exact run_remove s dir _

theorem run_openCache (s : Outcomes) (dir : CacheDir) (r : ServiceRecord) :
    (openCache s dir).run r =
      match s.openCache dir with
      | .ok _ => (.ok (), { r with cacheDir := some dir })
      | .error e =>
        (.error (.config (.cacheLayout e)), { r with events := r.events ++ removal s dir }) := by
  unfold openCache
  cases s.openCache dir with
  | ok _ => rfl
  | error e =>
      obtain ⟨failure, hremove⟩ := run_remove s dir r
      simp only [Attempt.run_bind, hremove, Attempt.run_fail]

/-- What is noted when a report is made. -/
def reporting (s : Outcomes) (c : ServiceConfig) (status : ReportStatus) (message : String) :
    List ServiceEvent :=
  match c.reportTo with
  | none => []
  | some address =>
    let line := reportLine status message
    .reported status address line ::
      match s.send address line with
      | .ok _ => []
      | .error e => [.noted (ServiceError.report address e).message]

/-- Whether a report arrives; it does if nobody is to know. -/
def delivery (s : Outcomes) (c : ServiceConfig) (status : ReportStatus) (message : String) :
    Except ServiceError Unit :=
  match c.reportTo with
  | none => .ok ()
  | some address => (s.send address (reportLine status message)).mapError (.report address)

theorem run_report (s : Outcomes) (c : ServiceConfig) (status : ReportStatus)
    (message : String) (r : ServiceRecord) :
    (report s c status message).run r =
      (.ok (delivery s c status message),
        { r with events := r.events ++ reporting s c status message }) := by
  unfold report delivery reporting
  cases c.reportTo with
  | none => simp [Attempt.run_pure]
  | some address =>
      simp only [Attempt.run_bind, run_note]
      cases s.send address (reportLine status message) with
      | ok _ => rfl
      | error e =>
          have hnote : ∀ r, (do
              note (.noted (ServiceError.report address e).message)
              pure (.error (.report address e)) : Step (Except ServiceError Unit)).run r =
            (.ok (.error (.report address e)),
              { r with events := r.events ++ [.noted (ServiceError.report address e).message] }) :=
            fun _ => rfl
          simp only [hnote]
          simp

/-! ## Starting -/

/-- Protocol, listening address and locator can be read. -/
structure Readable (c : ServiceConfig) : Prop where
  protocol : (Protocol.ofText? c.protocol).isSome = true
  listen : (SocketAddress.ofText? c.listen).isSome = true
  locator : ∃ l, Locator.parse c.uri = .ok l

theorem readable_of_readConfig {plan : Plan}
    (h : readConfig s c = .ok plan) : Readable c := by
  obtain ⟨protocol, hprotocol, h⟩ := Attempt.exists_of_bind_eq_ok h
  obtain ⟨listen, hlisten, h⟩ := Attempt.exists_of_bind_eq_ok h
  obtain ⟨l, hl, -⟩ := Attempt.exists_of_bind_eq_ok h
  refine ⟨?_, ?_, l, Attempt.mapError_eq_ok_iff.1 hl⟩
  · rw [Protocol.parse] at hprotocol
    cases hp : Protocol.ofText? c.protocol with
    | some p => rfl
    | none => rw [hp] at hprotocol; cases hprotocol
  · rw [parseListen] at hlisten
    cases ha : SocketAddress.ofText? c.listen with
    | some a => rfl
    | none => rw [ha] at hlisten; cases hlisten

/-- The configuration has been read, and its cache directory is there. -/
structure Prepared (s : Outcomes) (c : ServiceConfig) (plan : Plan) (dir : CacheDir) : Prop where
  plan : readConfig s c = .ok plan
  dir : prepareCache s c.cacheDir = .ok dir

/-- What is more, there is a socket. -/
structure Bound (s : Outcomes) (c : ServiceConfig) (plan : Plan) (dir : CacheDir)
    (address : SocketAddress) : Prop where
  prepared : Prepared s c plan dir
  bound : s.bind plan.listen = .ok address

/-- Why a start fails, with what has happened since it began and the cache directory that is
in use then. -/
inductive Failed (s : Outcomes) (c : ServiceConfig) (told : Bool) :
    ServiceError → List ServiceEvent → Option CacheDir → Prop
  | unreadable {e : ServiceError} (h : readConfig s c = .error e) : Failed s c told e [] none
  | unprepared {e : ServiceError} {plan : Plan} (hplan : readConfig s c = .ok plan)
      (h : prepareCache s c.cacheDir = .error e) : Failed s c told e [] none
  | unopened {e : OsError} {plan : Plan} {dir : CacheDir} (hdir : Prepared s c plan dir)
      (h : s.openCache dir = .error e) :
      Failed s c told (.config (.cacheLayout e)) (.prepared dir :: removal s dir) none
  | unbound {e : OsError} {plan : Plan} {dir : CacheDir} (hdir : Prepared s c plan dir)
      (h : s.bind plan.listen = .error e) :
      Failed s c told (.bind plan.listen.render e) [.prepared dir, .entered .buildingIndex]
        (some dir)
  | unbuilt {e : TreeError} {plan : Plan} {dir : CacheDir} {address : SocketAddress}
      (hbound : Bound s c plan dir address) (h : s.index plan.locator = some (.error e)) :
      Failed s c told (.build e) [.prepared dir, .entered .buildingIndex, .bound address]
        (some dir)
  | cancelled {plan : Plan} {dir : CacheDir} {address : SocketAddress}
      (hbound : Bound s c plan dir address) (h : told = true) :
      Failed s c told .cancelled [.prepared dir, .entered .buildingIndex, .bound address]
        (some dir)
  | unattached {e : ServiceError} {plan : Plan} {dir : CacheDir} {address : SocketAddress}
      (hbound : Bound s c plan dir address)
      (h : startAdapter s address plan.protocol = .error e) :
      Failed s c told e [.prepared dir, .entered .buildingIndex, .bound address] (some dir)

/-- To be told to stop afterwards changes nothing about a failure. -/
theorem Failed.of_told {told : Bool} {e : ServiceError} {new : List ServiceEvent}
    {dir : Option CacheDir} (h : Failed s c told e new dir) : Failed s c true e new dir := by
  cases h with
  | unreadable h => exact .unreadable h
  | unprepared hplan h => exact .unprepared hplan h
  | unopened hdir h => exact .unopened hdir h
  | unbound hdir h => exact .unbound hdir h
  | unbuilt hbound h => exact .unbuilt hbound h
  | cancelled hbound => exact .cancelled hbound rfl
  | unattached hbound h => exact .unattached hbound h

/-! ## Moments -/

/-- The events up to the index. -/
def opened (dir : CacheDir) : List ServiceEvent :=
  [.entered .initializing, .prepared dir, .entered .buildingIndex]

/-- The events up to serving. -/
def mounted (dir : CacheDir) (address : SocketAddress) : List ServiceEvent :=
  opened dir ++ [.bound address, .entered .serving]

/-- The events until somebody knows, or cannot be told. -/
def announced (s : Outcomes) (c : ServiceConfig) (dir : CacheDir) (address : SocketAddress) :
    List ServiceEvent :=
  mounted dir address ++ reporting s c .success address.render

/-- The events of a failed start until it is told. -/
def abandoned (s : Outcomes) (new : List ServiceEvent) (dir : Option CacheDir)
    (message : String) : List ServiceEvent :=
  .entered .initializing :: new ++ .entered .stopped :: putAway s dir ++
    [.noted s!"mount server failed to start: {message}"]

/-- The moments of a service, by its phases. -/
inductive Stands (s : Outcomes) (c : ServiceConfig) : Life → Prop
  | launching {told : Bool} : Stands s c ⟨.launching, [], none, told, false, .absent⟩
  | reading {told : Bool} :
      Stands s c ⟨.reading, [.entered .initializing], none, told, false, .absent⟩
  | preparing {told : Bool} {plan : Plan} (hplan : readConfig s c = .ok plan) :
      Stands s c ⟨.preparing plan, [.entered .initializing], none, told, false, .absent⟩
  | opening {told : Bool} {plan : Plan} {dir : CacheDir} (hdir : Prepared s c plan dir) :
      Stands s c ⟨.opening plan dir, [.entered .initializing, .prepared dir], none, told, false,
        .absent⟩
  | binding {told : Bool} {plan : Plan} {dir : CacheDir} (hdir : Prepared s c plan dir) :
      Stands s c ⟨.binding plan, opened dir, some dir, told, false, .absent⟩
  | indexing {told : Bool} {plan : Plan} {dir : CacheDir} {address : SocketAddress}
      (hbound : Bound s c plan dir address) :
      Stands s c ⟨.indexing plan address, opened dir ++ [.bound address], some dir, told, false,
        .absent⟩
  | attaching {told : Bool} {plan : Plan} {dir : CacheDir} {address : SocketAddress}
      (hbound : Bound s c plan dir address) :
      Stands s c ⟨.attaching plan address, opened dir ++ [.bound address], some dir, told, false,
        .absent⟩
  | reporting {told : Bool} {plan : Plan} {dir : CacheDir} {address : SocketAddress}
      {adapter : Adapter} (hbound : Bound s c plan dir address) (hadapter : adapter ≠ .absent) :
      Stands s c ⟨.reporting address, mounted dir address, some dir, told, false, adapter⟩
  /-- A report that has not arrived tells the adapter to stop. -/
  | waiting {told : Bool} {plan : Plan} {dir : CacheDir} {address : SocketAddress}
      {adapter : Adapter} (hbound : Bound s c plan dir address) (hadapter : adapter ≠ .absent) :
      Stands s c ⟨.waiting (delivery s c .success address.render), announced s c dir address,
        some dir, told, !(delivery s c .success address.render).isOk, adapter⟩
  | draining {told : Bool} {plan : Plan} {dir : CacheDir} {address : SocketAddress}
      {adapter : Adapter} {joined : Option AdapterEnd} (hbound : Bound s c plan dir address)
      (hadapter : adapter ≠ .absent) (hjoined : ∀ how, joined = some how → adapter = .ended how) :
      Stands s c ⟨.draining (delivery s c .success address.render) joined,
        announced s c dir address ++ [.entered .draining], some dir, told, true, adapter⟩
  | served {told : Bool} {plan : Plan} {dir : CacheDir} {address : SocketAddress}
      {how : AdapterEnd} (hbound : Bound s c plan dir address) :
      Stands s c ⟨.returned (delivery s c .success address.render >>= fun _ => how.result),
        announced s c dir address ++ .entered .draining :: .entered .stopped :: removal s dir,
        some dir, told, true, .ended how⟩
  | failing {told : Bool} {e : ServiceError} {new : List ServiceEvent} {dir : Option CacheDir}
      (h : Failed s c told e new dir) :
      Stands s c ⟨.failing e, .entered .initializing :: new, dir, told, false, .absent⟩
  | telling {told : Bool} {e : ServiceError} {new : List ServiceEvent} {dir : Option CacheDir}
      {message : String} (h : Failed s c told e new dir) :
      Stands s c ⟨.telling e message, abandoned s new dir message, dir, told, false, .absent⟩
  | failed {told : Bool} {e : ServiceError} {new : List ServiceEvent} {dir : Option CacheDir}
      {message : String} (h : Failed s c told e new dir) :
      Stands s c ⟨.returned (.error e),
        abandoned s new dir message ++ reporting s c .failure message, dir, told, false, .absent⟩

/-! ## Turns -/

/-- How many turns of its own a service has before it in a phase. -/
def Phase.rank : Phase → Nat
  | .launching => 10
  | .reading => 9
  | .preparing _ => 8
  | .opening .. => 7
  | .binding _ => 6
  | .indexing .. => 5
  | .attaching .. => 4
  | .reporting _ => 3
  | .waiting _ | .failing _ => 2
  | .draining .. | .telling .. => 1
  | .returned _ => 0

/-- An adapter that has not ended may still end. -/
def rankOf : Adapter → Nat
  | .ended _ => 0
  | .absent | .running => 1

/-- How many turns are left, those in which the service is told to stop apart. -/
def Life.rank (l : Life) : Nat := l.phase.rank + rankOf l.record.adapter

/-- One moment after another, nearer to the end.  Who is told to stop stays so. -/
structure Onward (s : Outcomes) (c : ServiceConfig) (l l' : Life) : Prop where
  stands : Stands s c l'
  rank : l'.rank < l.rank
  told : l.record.isTold = true → l'.record.isTold = true

theorem rank_lt {phase : Phase} (hphase : Nat.blt phase.rank l.phase.rank = true)
    (hadapter : rankOf r.adapter ≤ rankOf l.record.adapter) : Life.rank ⟨phase, r⟩ < l.rank :=
  Nat.add_lt_add_of_lt_of_le (Nat.le_of_ble_eq_true hphase) hadapter

theorem does_of_ok {work : Step Phase} {phase : Phase} (h : work.run l.record = (.ok phase, r)) :
    l.does work = ⟨phase, r⟩ := by
  rw [Life.does, h]

theorem eq_ended_of_end? {adapter : Adapter} {how : AdapterEnd} (h : adapter.end? = some how) :
    adapter = .ended how := by
  cases adapter with
  | absent | running => cases h
  | ended other => exact congrArg _ (Option.some.inj h)

theorem run_drain (reported : Except ServiceError Unit) (joined : Option AdapterEnd)
    (r : ServiceRecord) : (drain reported joined).run r = (.ok (.draining reported joined),
      { r with events := r.events ++ [.entered .draining], stop := true }) := rfl

theorem run_close (reported : Except ServiceError Unit) (how : AdapterEnd) (r : ServiceRecord) :
    (close s reported how).run r = (.ok (.returned (reported >>= fun _ => how.result)),
      { r with events := r.events ++ .entered .stopped :: putAway s r.cacheDir }) := by
  obtain ⟨failure, hcleanup⟩ :=
    run_cleanup s { r with events := r.events ++ [.entered .stopped] }
  simp only [close, Attempt.run_bind, run_enter, hcleanup, Attempt.run_pure]
  simp

theorem run_abandon (s : Outcomes) (e : ServiceError) (r : ServiceRecord) :
    ∃ message, (abandon s e).run r = (.ok (.telling e message),
      { r with events := r.events ++ .entered .stopped :: putAway s r.cacheDir ++
        [.noted s!"mount server failed to start: {message}"] }) := by
  obtain ⟨failure, hcleanup⟩ :=
    run_cleanup s { r with events := r.events ++ [.entered .stopped] }
  refine ⟨failureMessage e failure, ?_⟩
  simp only [abandon, Attempt.run_bind, run_enter, hcleanup, run_note, Attempt.run_pure]
  simp

/-- What a service does by itself leads onward from any moment. -/
theorem Stands.does {work : Step Phase} (h : Stands s c l)
    (hwork : work? s c l.record.adapter l.phase = some work) : Onward s c l (l.does work) := by
  cases h with
  | launching =>
      cases hwork
      exact ⟨.reading, rank_lt rfl (Nat.le_refl _), id⟩
  | reading =>
      cases hwork
      simp only [Life.does, Attempt.run_bind, Attempt.run_ofExcept]
      cases hplan : readConfig s c with
      | ok plan => exact ⟨.preparing hplan, rank_lt rfl (Nat.le_refl _), id⟩
      | error e => exact ⟨.failing (.unreadable hplan), rank_lt rfl (Nat.le_refl _), id⟩
  | preparing hplan =>
      cases hwork
      simp only [Life.does, Attempt.run_bind, Attempt.run_ofExcept, run_note]
      cases hdir : prepareCache s c.cacheDir with
      | ok dir => exact ⟨.opening ⟨hplan, hdir⟩, rank_lt rfl (Nat.le_refl _), id⟩
      | error e => exact ⟨.failing (.unprepared hplan hdir), rank_lt rfl (Nat.le_refl _), id⟩
  | @opening told plan dir hdir =>
      cases hwork
      simp only [Life.does, Attempt.run_bind, run_openCache, run_enter]
      cases hopen : s.openCache dir with
      | ok _ => exact ⟨.binding hdir, rank_lt rfl (Nat.le_refl _), id⟩
      | error e => exact ⟨.failing (.unopened hdir hopen), rank_lt rfl (Nat.le_refl _), id⟩
  | @binding told plan dir hdir =>
      cases hwork
      simp only [Life.does, Attempt.run_bind, Attempt.run_ofExcept, run_note]
      cases hbind : s.bind plan.listen with
      | ok address => exact ⟨.indexing ⟨hdir, hbind⟩, rank_lt rfl (Nat.le_refl _), id⟩
      | error e => exact ⟨.failing (.unbound hdir hbind), rank_lt rfl (Nat.le_refl _), id⟩
  | @indexing told plan dir address hbound =>
      obtain ⟨built, hbuilt, rfl⟩ := Option.map_eq_some_iff.1 hwork
      simp only [Life.does, Attempt.run_bind, Attempt.run_ofExcept]
      cases built with
      | ok _ => exact ⟨.attaching hbound, rank_lt rfl (Nat.le_refl _), id⟩
      | error e => exact ⟨.failing (.unbuilt hbound hbuilt), rank_lt rfl (Nat.le_refl _), id⟩
  | @attaching told plan dir address hbound =>
      cases hwork
      simp only [Life.does, Attempt.run_bind, Attempt.run_ofExcept, run_startTask, run_enter]
      cases hadapter : startAdapter s address plan.protocol with
      | ok _ => exact ⟨.reporting hbound (by simp), rank_lt rfl (Nat.le_refl _), id⟩
      | error e => exact ⟨.failing (.unattached hbound hadapter), rank_lt rfl (Nat.le_refl _), id⟩
  | @reporting told plan dir address adapter hbound hadapter =>
      cases hwork
      simp only [Life.does, Attempt.run_bind, run_report]
      have hnext := @Stands.waiting s c told plan dir address adapter hbound hadapter
      generalize delivery s c .success address.render = reported at hnext ⊢
      cases reported with
      | ok _ => exact ⟨hnext, rank_lt rfl (Nat.le_refl _), id⟩
      | error e => exact ⟨hnext, rank_lt rfl (Nat.le_refl _), fun _ => Bool.or_true told⟩
  | @waiting told _ _ _ _ hbound hadapter =>
      obtain ⟨how, hhow, rfl⟩ := Option.map_eq_some_iff.1 hwork
      refine ⟨.draining hbound hadapter fun other hother => ?_, rank_lt rfl (Nat.le_refl _),
        fun _ => Bool.or_true told⟩
      cases hother
      exact eq_ended_of_end? hhow
  | @draining told plan dir address adapter joined hbound hadapter hjoined =>
      obtain ⟨how, hhow, rfl⟩ := Option.map_eq_some_iff.1 hwork
      have hended : adapter = .ended how := by
        cases joined with
        | some other => exact hjoined how hhow
        | none => exact eq_ended_of_end? hhow
      subst hended
      rw [does_of_ok (run_close _ how _)]
      refine ⟨?_, rank_lt rfl (Nat.le_refl _), id⟩
      simpa [putAway] using @Stands.served s c told plan dir address how hbound
  | served hbound => cases hwork
  | @failing told e new dir h =>
      cases hwork
      obtain ⟨message, hrun⟩ := run_abandon s e
        ⟨.entered .initializing :: new, dir, told, false, .absent⟩
      rw [does_of_ok hrun]
      exact ⟨.telling h, rank_lt rfl (Nat.le_refl _), id⟩
  | telling h =>
      cases hwork
      simp only [Life.does, Attempt.run_bind, run_report]
      exact ⟨.failed h, rank_lt rfl (Nat.le_refl _), id⟩
  | failed h => cases hwork

/-- And so does what it does when it sees that it is to stop. -/
theorem Stands.does_stopped {work : Step Phase} (h : Stands s c l)
    (hwork : stopped? l.record l.phase = some work) : Onward s c l (l.does work) := by
  cases h with
  | indexing hbound =>
      obtain ⟨htold, hwork⟩ := Option.ite_none_right_eq_some.1 hwork
      cases hwork
      exact ⟨.failing (.cancelled hbound htold), rank_lt rfl (Nat.le_refl _), id⟩
  | @waiting told _ _ _ _ hbound hadapter =>
      obtain ⟨-, hwork⟩ := Option.ite_none_right_eq_some.1 hwork
      cases hwork
      exact ⟨.draining hbound hadapter (by simp), rank_lt rfl (Nat.le_refl _),
        fun _ => Bool.or_true told⟩
  | launching | reading | preparing | opening | binding | attaching | reporting | draining
  | served | failing | telling | failed => cases hwork

/-- To be told to stop changes no moment into none. -/
theorem Stands.shutdown (h : Stands s c l) :
    Stands s c ⟨l.phase, { l.record with shutdown := true }⟩ := by
  cases h with
  | launching => exact .launching
  | reading => exact .reading
  | preparing hplan => exact .preparing hplan
  | opening hdir => exact .opening hdir
  | binding hdir => exact .binding hdir
  | indexing hbound => exact .indexing hbound
  | attaching hbound => exact .attaching hbound
  | reporting hbound hadapter => exact .reporting hbound hadapter
  | waiting hbound hadapter => exact .waiting hbound hadapter
  | draining hbound hadapter hjoined => exact .draining hbound hadapter hjoined
  | served hbound => exact .served hbound
  | failing h => exact .failing h.of_told
  | telling h => exact .telling h.of_told
  | failed h => exact .failed h.of_told

/-- The adapter ends while the service serves, or drains and has not seen it end. -/
theorem Stands.adapterEnds (h : Stands s c l) (hrunning : l.record.adapter = .running)
    (how : AdapterEnd) : Stands s c ⟨l.phase, { l.record with adapter := .ended how }⟩ := by
  cases h with
  | reporting hbound => exact .reporting hbound (by simp)
  | waiting hbound => exact .waiting hbound (by simp)
  | draining hbound hadapter hjoined =>
      refine .draining hbound (by simp) fun other hother => ?_
      cases (hjoined other hother).symm.trans hrunning
  | launching | reading | preparing | opening | binding | indexing | attaching | served | failing
  | telling | failed => cases hrunning

/-- Every turn but to be told to stop leads onward. -/
theorem Stands.onward {turn : Turn} (h : Stands s c l) (hstep : step? s c l turn = some l')
    (hturn : turn ≠ .shutdown) : Onward s c l l' := by
  cases turn with
  | own =>
      obtain ⟨work, hwork, rfl⟩ := Option.map_eq_some_iff.1 hstep
      exact h.does hwork
  | stop =>
      obtain ⟨work, hwork, rfl⟩ := Option.map_eq_some_iff.1 hstep
      exact h.does_stopped hwork
  | shutdown => exact absurd rfl hturn
  | adapterEnds how =>
      obtain ⟨hrunning, hstep⟩ := Option.ite_none_right_eq_some.1 hstep
      cases hstep
      exact ⟨h.adapterEnds hrunning how, by simp [Life.rank, rankOf, hrunning], id⟩

/-- One turn of whatever kind leads from one moment to another. -/
theorem Stands.step {turn : Turn} (h : Stands s c l) (hstep : step? s c l turn = some l') :
    Stands s c l' := by
  by_cases hturn : turn = .shutdown
  · subst hturn
    cases hstep
    exact h.shutdown
  · exact (h.onward hstep hturn).stands

/-! ## Many turns -/

@[simp] theorem follow_nil (s : Outcomes) (c : ServiceConfig) (l : Life) : follow s c l [] = l := rfl

theorem follow_cons (s : Outcomes) (c : ServiceConfig) (l : Life) (turn : Turn)
    (turns : List Turn) :
    follow s c l (turn :: turns) = follow s c ((step? s c l turn).getD l) turns := rfl

theorem follow_append (s : Outcomes) (c : ServiceConfig) (l : Life) (turns more : List Turn) :
    follow s c l (turns ++ more) = follow s c (follow s c l turns) more := List.foldl_append

/-- What every turn that can be taken keeps, turns keep. -/
theorem follow_induction {P : Life → Prop} (hstep : ∀ l turn l', P l → step? s c l turn = some l' →
    P l') (h : P l) (turns : List Turn) : P (follow s c l turns) := by
  induction turns generalizing l with
  | nil => exact h
  | cons turn turns ih =>
      rw [follow_cons]
      cases hnext : step? s c l turn with
      | none => exact ih h
      | some next => exact ih (hstep l turn next h hnext)

/-- Whatever comes in whatever order, a service stands at one of its moments. -/
theorem stands_follow (s : Outcomes) (c : ServiceConfig) (turns : List Turn) :
    Stands s c (follow s c {} turns) :=
  follow_induction (fun _ _ _ h hstep => h.step hstep) .launching turns

end Service

end ArchiveMount

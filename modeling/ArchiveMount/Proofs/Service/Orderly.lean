/-
# `ArchiveMount.Proofs.Service.Orderly` — how a service lives and ends

At each of its moments it is known which events have led there (`Stands`), so whatever the
steps come to, whenever the service is told to stop and however its adapter ends, what
there is to know about stages, reports, sockets and directories is read off a few short
lists (`follow_orderly`).  That a service which is told to stop comes to its end is an
induction on how many turns it has left: `Stands.rests` lists all the moments at which a
service can do nothing by itself.
-/
import ArchiveMount.Proofs.Service.Lifecycle

namespace ArchiveMount

namespace Service

variable {s : Outcomes} {c : ServiceConfig} {l l' : Life}

/-! ## What events tell -/

/-- The stages that are entered, first to last. -/
def stagesOf (events : List ServiceEvent) : List Stage :=
  events.filterMap fun
    | .entered stage => some stage
    | _ => none

/-- The reports that are tried: status, where to and the line. -/
def reportsOf (events : List ServiceEvent) : List (ReportStatus × String × String) :=
  events.filterMap fun
    | .reported status address line => some (status, address, line)
    | _ => none

/-- The one report of a start, if anybody is to know. -/
def reported (c : ServiceConfig) (status : ReportStatus) (message : String) :
    List (ReportStatus × String × String) :=
  (c.reportTo.map fun peer => (status, peer, reportLine status message)).toList

/-- Whether an event is about a directory or a socket. -/
def ofResource : ServiceEvent → Bool
  | .prepared _ | .bound _ | .removedCache _ => true
  | .entered _ | .reported .. | .noted _ => false

/-- What happens to directories and sockets. -/
def resourcesOf (events : List ServiceEvent) : List ServiceEvent := events.filter ofResource

theorem mem_resourcesOf {e : ServiceEvent} {events : List ServiceEvent} (he : ofResource e = true) :
    e ∈ resourcesOf events ↔ e ∈ events := by
  simp [resourcesOf, he]

section Views

variable (status : ReportStatus) (message : String) (dir : CacheDir)

@[simp] theorem stagesOf_entered (stage : Stage) (events : List ServiceEvent) :
    stagesOf (.entered stage :: events) = stage :: stagesOf events := rfl

@[simp] theorem stagesOf_noted (text : String) (events : List ServiceEvent) :
    stagesOf (.noted text :: events) = stagesOf events := rfl

@[simp] theorem stagesOf_prepared (events : List ServiceEvent) :
    stagesOf (.prepared dir :: events) = stagesOf events := rfl

@[simp] theorem stagesOf_bound (address : SocketAddress) (events : List ServiceEvent) :
    stagesOf (.bound address :: events) = stagesOf events := rfl

@[simp] theorem stagesOf_nil : stagesOf [] = [] := rfl

@[simp] theorem reportsOf_entered (stage : Stage) (events : List ServiceEvent) :
    reportsOf (.entered stage :: events) = reportsOf events := rfl

@[simp] theorem reportsOf_noted (text : String) (events : List ServiceEvent) :
    reportsOf (.noted text :: events) = reportsOf events := rfl

@[simp] theorem reportsOf_prepared (events : List ServiceEvent) :
    reportsOf (.prepared dir :: events) = reportsOf events := rfl

@[simp] theorem reportsOf_bound (address : SocketAddress) (events : List ServiceEvent) :
    reportsOf (.bound address :: events) = reportsOf events := rfl

@[simp] theorem reportsOf_nil : reportsOf [] = [] := rfl

@[simp] theorem resourcesOf_entered (stage : Stage) (events : List ServiceEvent) :
    resourcesOf (.entered stage :: events) = resourcesOf events := rfl

@[simp] theorem resourcesOf_noted (text : String) (events : List ServiceEvent) :
    resourcesOf (.noted text :: events) = resourcesOf events := rfl

@[simp] theorem resourcesOf_prepared (events : List ServiceEvent) :
    resourcesOf (.prepared dir :: events) = .prepared dir :: resourcesOf events := rfl

@[simp] theorem resourcesOf_bound (address : SocketAddress) (events : List ServiceEvent) :
    resourcesOf (.bound address :: events) = .bound address :: resourcesOf events := rfl

@[simp] theorem resourcesOf_nil : resourcesOf [] = [] := rfl

@[simp] theorem stages_append (a b : List ServiceEvent) :
    stagesOf (a ++ b) = stagesOf a ++ stagesOf b := List.filterMap_append

@[simp] theorem reports_append (a b : List ServiceEvent) :
    reportsOf (a ++ b) = reportsOf a ++ reportsOf b := List.filterMap_append

@[simp] theorem resourcesOf_append (a b : List ServiceEvent) :
    resourcesOf (a ++ b) = resourcesOf a ++ resourcesOf b := List.filter_append a b

/-- Events about directories and sockets tell nothing of stages. -/
theorem stagesOf_of_resources {events : List ServiceEvent} (h : resourcesOf events = events) :
    stagesOf events = [] := by
  refine List.filterMap_eq_nil_iff.2 fun e he => ?_
  have hresource := List.filter_eq_self.1 h e he
  cases e with
  | entered => cases hresource
  | prepared | bound | reported | removedCache | noted => rfl

/-- And nothing of reports. -/
theorem reportsOf_of_resources {events : List ServiceEvent} (h : resourcesOf events = events) :
    reportsOf events = [] := by
  refine List.filterMap_eq_nil_iff.2 fun e he => ?_
  have hresource := List.filter_eq_self.1 h e he
  cases e with
  | reported => cases hresource
  | prepared | bound | entered | removedCache | noted => rfl

@[simp] theorem resources_removal : resourcesOf (removal s dir) = removal s dir := by
  cases dir with
  | kept path => rfl
  | temporary path => rw [removal]; cases s.removeDirectory path <;> rfl

@[simp] theorem stages_removal : stagesOf (removal s dir) = [] :=
  stagesOf_of_resources (resources_removal dir)

@[simp] theorem reports_removal : reportsOf (removal s dir) = [] :=
  reportsOf_of_resources (resources_removal dir)

@[simp] theorem resources_putAway (dir : Option CacheDir) :
    resourcesOf (putAway s dir) = putAway s dir := by
  cases dir with
  | none => rfl
  | some dir => exact resources_removal dir

@[simp] theorem stages_putAway (dir : Option CacheDir) : stagesOf (putAway s dir) = [] :=
  stagesOf_of_resources (resources_putAway dir)

@[simp] theorem reports_putAway (dir : Option CacheDir) : reportsOf (putAway s dir) = [] :=
  reportsOf_of_resources (resources_putAway dir)

@[simp] theorem reports_reporting :
    reportsOf (reporting s c status message) = reported c status message := by
  rw [reporting, reported]
  cases c.reportTo with
  | none => rfl
  | some peer => simp only; cases s.send peer (reportLine status message) <;> rfl

@[simp] theorem stages_reporting : stagesOf (reporting s c status message) = [] := by
  rw [reporting]
  cases c.reportTo with
  | none => rfl
  | some peer => simp only; cases s.send peer (reportLine status message) <;> rfl

@[simp] theorem resources_reporting : resourcesOf (reporting s c status message) = [] := by
  rw [reporting]
  cases c.reportTo with
  | none => rfl
  | some peer => simp only; cases s.send peer (reportLine status message) <;> rfl

/-- Removal is noted if it succeeds, and of a temporary directory. -/
theorem mem_removal {e : ServiceEvent} : e ∈ removal s dir ↔
    ∃ path, dir = .temporary path ∧ s.removeDirectory path = .ok () ∧ e = .removedCache path := by
  cases dir with
  | kept path => simp [removal]
  | temporary path => rw [removal]; cases h : s.removeDirectory path <;> simp [h]

end Views

/-- A text without a line break, and then one. -/
def OneLine (line : String) : Prop :=
  ∃ body, line = body ++ "\n" ∧ '\n' ∉ body.toList ∧ '\r' ∉ body.toList

/-- Whatever is to be reported, it is one line. -/
theorem oneLine_reportLine (status : ReportStatus) (message : String) :
    OneLine (reportLine status message) := by
  have hname : '\n' ∉ (status.name ++ "=").toList ∧ '\r' ∉ (status.name ++ "=").toList := by
    cases status <;> decide
  have hflat : ∀ ch ∈ (message.map flatChar).toList, ch ≠ '\n' ∧ ch ≠ '\r' := by
    intro ch hch
    rw [String.toList_map, List.mem_map] at hch
    obtain ⟨ch, -, rfl⟩ := hch
    unfold flatChar
    split
    · decide
    · rename_i hplain
      exact ⟨fun h => hplain (.inr h), fun h => hplain (.inl h)⟩
  refine ⟨status.name ++ "=" ++ message.map flatChar, rfl, ?_⟩
  simp only [String.toList_append, List.mem_append, not_or] at hname ⊢
  exact ⟨⟨hname.1, fun h => (hflat _ h).1 rfl⟩, hname.2, fun h => (hflat _ h).2 rfl⟩

/-! ## What a failed start leaves -/

/-- What may have happened to directories and sockets; at the `last` all has been put away. -/
inductive Resources (s : Outcomes) (c : ServiceConfig) (last : Bool) : List ServiceEvent → Prop
  | none : Resources s c last []
  | made {plan : Plan} {dir : CacheDir} (hdir : Prepared s c plan dir)
      (address : Option SocketAddress) (removed : List ServiceEvent)
      (hremoved : removed = removal s dir ∨ removed = [] ∧ last = false) :
      Resources s c last (.prepared dir :: ((address.map .bound).toList ++ removed))

section Failed

variable {told : Bool} {e : ServiceError} {new : List ServiceEvent} {dir : Option CacheDir}

theorem Failed.stages (h : Failed s c told e new dir) :
    stagesOf new = [] ∨ stagesOf new = [.buildingIndex] := by
  cases h with
  | unreadable | unprepared => exact .inl rfl
  | @unopened _ _ dir => exact .inl (stages_removal dir)
  | unbound | unbuilt | cancelled | unattached => exact .inr rfl

theorem Failed.reports (h : Failed s c told e new dir) : reportsOf new = [] := by
  cases h with
  | @unopened _ _ dir => exact reports_removal dir
  | unreadable | unprepared | unbound | unbuilt | cancelled | unattached => rfl

/-- A cache that does not open is put away at once; every other directory is in use. -/
theorem Failed.resources (h : Failed s c told e new dir) :
    Resources s c false (resourcesOf new) := by
  cases h with
  | unreadable | unprepared => exact .none
  | unopened hdir => simpa using Resources.made hdir none _ (.inl rfl)
  | unbound hdir => exact .made hdir none [] (.inr ⟨rfl, rfl⟩)
  | unbuilt hbound | cancelled hbound | unattached hbound =>
      exact .made hbound.prepared (some _) [] (.inr ⟨rfl, rfl⟩)

theorem Failed.resources_putAway (h : Failed s c told e new dir) (last : Bool) :
    Resources s c last (resourcesOf new ++ putAway s dir) := by
  cases h with
  | unreadable | unprepared => exact .none
  | unopened hdir => simpa [putAway] using Resources.made hdir none _ (.inl rfl)
  | unbound hdir => exact .made hdir none _ (.inl rfl)
  | unbuilt hbound | cancelled hbound | unattached hbound =>
      exact .made hbound.prepared (some _) _ (.inl rfl)

end Failed

/-! ## What a moment tells -/

section Moments

variable (dir : CacheDir) (address : SocketAddress)

@[simp] theorem stages_mounted :
    stagesOf (mounted dir address) = [.initializing, .buildingIndex, .serving] := rfl

@[simp] theorem reports_mounted : reportsOf (mounted dir address) = [] := rfl

@[simp] theorem stages_announced :
    stagesOf (announced s c dir address) = [.initializing, .buildingIndex, .serving] := by
  simp [announced]

@[simp] theorem reports_announced :
    reportsOf (announced s c dir address) = reported c .success address.render := by
  simp [announced]

@[simp] theorem resources_announced :
    resourcesOf (announced s c dir address) = [.prepared dir, .bound address] := by
  simp [announced, mounted, opened]

/-- Of directories and sockets a failed start says nothing at its end. -/
@[simp] theorem resources_abandoned (new : List ServiceEvent) (dir : Option CacheDir)
    (message : String) :
    resourcesOf (abandoned s new dir message) = resourcesOf new ++ putAway s dir := by
  simp [abandoned]

end Moments

/-- The ways in which the stages of a service may follow each other. -/
def courses : List (List Stage) :=
  [[.initializing, .stopped], [.initializing, .buildingIndex, .stopped],
    [.initializing, .buildingIndex, .serving, .draining, .stopped]]

/-- The stages are the beginning of one of the courses, and a whole one at the end. -/
theorem Stands.stages (h : Stands s c l) : ∃ course ∈ courses,
    stagesOf l.record.events <+: course ∧
      ∀ result, l.phase = .returned result → stagesOf l.record.events = course := by
  have hserved : [.initializing, .buildingIndex, .serving, .draining, .stopped] ∈ courses := by
    simp [courses]
  cases h with
  | launching | reading | preparing | opening | binding | indexing | attaching | reporting
  | waiting | draining => exact ⟨_, hserved, by simp [opened], by simp⟩
  | served => exact ⟨_, hserved, by simp, by simp⟩
  | failing h | telling h | failed h =>
      rcases h.stages with hnew | hnew
      · exact ⟨[.initializing, .stopped], by simp [courses], by simp [abandoned, hnew],
          by simp [abandoned, hnew]⟩
      · exact ⟨[.initializing, .buildingIndex, .stopped], by simp [courses],
          by simp [abandoned, hnew], by simp [abandoned, hnew]⟩

theorem Stands.serving_mem_iff (h : Stands s c l) :
    .serving ∈ stagesOf l.record.events ↔ l.record.adapter ≠ .absent := by
  cases h with
  | launching | reading | preparing | opening | binding | indexing | attaching => simp [opened]
  | reporting _ hadapter | waiting _ hadapter | draining _ hadapter => simp [hadapter]
  | served => simp
  | failing h | telling h | failed h =>
      rcases h.stages with hnew | hnew <;> simp [abandoned, hnew]

/-- Nothing is reported before the start has gone well or failed, and then one thing: the
address that is served on or a failure. -/
theorem Stands.reports (h : Stands s c l) :
    reportsOf l.record.events = [] ∧ (∀ result, l.phase ≠ .returned result) ∨
      ∃ status message, reportsOf l.record.events = reported c status message ∧
        (status = .success ↔ l.record.adapter ≠ .absent) ∧
        (status = .success → ∃ address, .bound address ∈ resourcesOf l.record.events ∧
          message = address.render) := by
  cases h with
  | launching | reading | preparing | opening | binding | indexing | attaching | reporting =>
      exact .inl ⟨by simp [opened], by simp⟩
  | failing h => exact .inl ⟨by simp [h.reports], by simp⟩
  | telling h => exact .inl ⟨by simp [abandoned, h.reports], by simp⟩
  | @waiting _ _ _ address _ _ hadapter | @draining _ _ _ address _ _ _ hadapter =>
      exact .inr ⟨.success, address.render, by simp, by simp [hadapter],
        fun _ => ⟨address, by simp, rfl⟩⟩
  | @served _ _ _ address =>
      exact .inr ⟨.success, address.render, by simp, by simp, fun _ => ⟨address, by simp, rfl⟩⟩
  | @failed _ _ _ _ message h =>
      exact .inr ⟨.failure, message, by simp [abandoned, h.reports], by simp, by simp⟩

/-- Directories and sockets at any moment, and at the end. -/
theorem Stands.resources (h : Stands s c l) :
    Resources s c false (resourcesOf l.record.events) ∧
      ∀ result, l.phase = .returned result → Resources s c true (resourcesOf l.record.events) := by
  cases h with
  | launching | reading | preparing => exact ⟨.none, by simp⟩
  | opening hdir | binding hdir => exact ⟨.made hdir none [] (.inr ⟨rfl, rfl⟩), by simp⟩
  | indexing hbound | attaching hbound | reporting hbound =>
      exact ⟨.made hbound.prepared (some _) [] (.inr ⟨rfl, rfl⟩), by simp⟩
  | @waiting _ _ _ address _ hbound | @draining _ _ _ address _ _ hbound =>
      refine ⟨?_, by simp⟩
      simpa using Resources.made hbound.prepared (some address) [] (.inr ⟨rfl, rfl⟩)
  | @served _ _ _ address _ hbound =>
      have hall : ∀ last, Resources s c last _ := fun last =>
        .made hbound.prepared (some address) _ (.inl rfl)
      exact ⟨by simpa using hall false,
        fun _ _ => by simpa using hall true⟩
  | failing h => exact ⟨by simpa using h.resources, by simp⟩
  | telling h => exact ⟨by simpa using h.resources_putAway false, by simp⟩
  | failed h =>
      exact ⟨by simpa using h.resources_putAway false,
        fun _ _ => by simpa using h.resources_putAway true⟩

section Resources

variable {last : Bool} {events : List ServiceEvent}

/-- There is no socket before the configuration is read. -/
theorem Resources.readable {address : SocketAddress} (h : Resources s c last events)
    (hb : .bound address ∈ events) : Readable c := by
  cases h with
  | none => cases hb
  | made hdir => exact readable_of_readConfig hdir.plan

/-- Nothing is prepared but what was asked for. -/
theorem Resources.prepared {d : CacheDir} (h : Resources s c last events)
    (hd : .prepared d ∈ events) : prepareCache s c.cacheDir = .ok d := by
  cases h with
  | none => cases hd
  | made hdir address removed hremoved =>
      have hother : .prepared d ∉ removed := by
        rcases hremoved with rfl | ⟨rfl, -⟩ <;> simp [mem_removal]
      obtain rfl : d = _ := by simpa [hother] using hd
      exact hdir.dir

/-- Only a temporary directory that was made is ever removed. -/
theorem Resources.removed {path : String} (h : Resources s c last events)
    (hmem : .removedCache path ∈ events) :
    .prepared (.temporary path) ∈ events ∧ s.removeDirectory path = .ok () := by
  cases h with
  | none => cases hmem
  | made hdir address removed hremoved =>
      have hmem : .removedCache path ∈ removed := by simpa using hmem
      rcases hremoved with rfl | ⟨rfl, -⟩
      · obtain ⟨path, rfl, hok, heq⟩ := (mem_removal _).1 hmem
        cases heq
        exact ⟨by simp, hok⟩
      · cases hmem

/-- At the last it is removed, if that can be done. -/
theorem Resources.removed_of_last {path : String} (h : Resources s c true events)
    (hprepared : .prepared (.temporary path) ∈ events) (hok : s.removeDirectory path = .ok ()) :
    .removedCache path ∈ events := by
  cases h with
  | none => cases hprepared
  | @made plan dir hdir address removed hremoved =>
      obtain rfl : removed = removal s dir := hremoved.resolve_right (by simp)
      obtain rfl : dir = .temporary path := by simpa [mem_removal, eq_comm] using hprepared
      simp [mem_removal, hok]

end Resources

/-! ## Coming to the end -/

/-- The moments at which a service can do nothing by itself. -/
inductive Idle (s : Outcomes) : Life → Prop
  | returned {result : Except ServiceError Unit} {r : ServiceRecord} : Idle s ⟨.returned result, r⟩
  /-- The index is not done, and never will be. -/
  | indexing {plan : Plan} {address : SocketAddress} {r : ServiceRecord}
      (hindex : s.index plan.locator = none) : Idle s ⟨.indexing plan address, r⟩
  | waiting {reported : Except ServiceError Unit} {r : ServiceRecord}
      (hrunning : r.adapter = .running) : Idle s ⟨.waiting reported, r⟩
  | draining {reported : Except ServiceError Unit} {r : ServiceRecord}
      (hrunning : r.adapter = .running) : Idle s ⟨.draining reported none, r⟩

theorem eq_running_of_end? {adapter : Adapter} (h : adapter.end? = none)
    (hadapter : adapter ≠ .absent) : adapter = .running := by
  cases adapter with
  | absent => exact absurd rfl hadapter
  | running => rfl
  | ended how => cases h

theorem Stands.idle (h : Stands s c l) (hown : step? s c l .own = none) : Idle s l := by
  have hwork : work? s c l.record.adapter l.phase = none := Option.map_eq_none_iff.1 hown
  cases h with
  | launching | reading | preparing | opening | binding | attaching | reporting | failing
  | telling => cases hwork
  | indexing => exact .indexing (Option.map_eq_none_iff.1 hwork)
  | waiting _ hadapter =>
      exact .waiting (eq_running_of_end? (Option.map_eq_none_iff.1 hwork) hadapter)
  | @draining _ _ _ _ adapter joined _ hadapter =>
      have hnone : (joined <|> adapter.end?) = none := Option.map_eq_none_iff.1 hwork
      cases joined with
      | some how => cases hnone
      | none => exact .draining (eq_running_of_end? hnone hadapter)
  | served | failed => exact .returned

theorem follow_of_step {turn : Turn} (h : step? s c l turn = some l') (more : List Turn) :
    follow s c l (turn :: more) = follow s c l' more := by
  rw [follow_cons, h, Option.getD_some]

theorem follow_of_none {turn : Turn} (h : step? s c l turn = none) (more : List Turn) :
    follow s c l (turn :: more) = follow s c l more := by
  rw [follow_cons, h, Option.getD_none]

/-- A service that is told to stop can come to its end without another word from outside. -/
theorem Stands.exists_returned (h : Stands s c l) (htold : l.record.isTold = true) :
    ∃ more, .shutdown ∉ more ∧ ∃ result, (follow s c l more).phase = .returned result := by
  induction hn : l.rank using Nat.strongRecOn generalizing l with
  | _ n ih =>
      have hgo : ∀ turn l', turn ≠ .shutdown → step? s c l turn = some l' → ∃ more,
          .shutdown ∉ more ∧ ∃ result, (follow s c l more).phase = .returned result := by
        intro turn l' hturn hstep
        have honward := h.onward hstep hturn
        obtain ⟨more, hmore, hreturned⟩ :=
          ih l'.rank (hn ▸ honward.rank) honward.stands (honward.told htold) rfl
        exact ⟨turn :: more, by simp [hmore, hturn.symm], by rwa [follow_of_step hstep]⟩
      cases hown : step? s c l .own with
      | some l' => exact hgo .own l' (by simp) hown
      | none =>
          cases h.idle hown with
          | returned => exact ⟨[], by simp, _, rfl⟩
          | indexing =>
              cases h with
              | @indexing told =>
                  obtain rfl : told = true := by simpa [ServiceRecord.isTold] using htold
                  exact hgo .stop _ (by simp) rfl
          | waiting => exact hgo .stop _ (by simp) (by rw [step?, stopped?, if_pos htold]; rfl)
          | draining hrunning => exact hgo (.adapterEnds .finished) _ (by simp) (if_pos hrunning)

/-! ## After the turning point -/

/-- Whether a service is about to end. -/
def Phase.isLate : Phase → Bool
  | .draining .. | .failing _ | .telling .. | .returned _ => true
  | _ => false

/-- Whether a start has failed, and how. -/
def Phase.failed? : Phase → Option ServiceError
  | .failing e | .telling e _ | .returned (.error e) => some e
  | _ => none

/-- A service that is about to end stays so, and does not think better of how it failed. -/
theorem late_step {turn : Turn} (hlate : l.phase.isLate = true)
    (hstep : step? s c l turn = some l') : l'.phase.isLate = true ∧
      (l.record.adapter ≠ .running → l'.record.adapter ≠ .running) ∧
      ∀ e, l.phase.failed? = some e → l'.phase.failed? = some e := by
  obtain ⟨phase, r⟩ := l
  cases turn with
  | own =>
      cases phase with
      | failing e =>
          cases hstep
          obtain ⟨message, hrun⟩ := run_abandon s e r
          rw [does_of_ok hrun]
          exact ⟨rfl, id, fun _ h => h⟩
      | telling e message =>
          cases hstep
          simp only [Life.does, Attempt.run_bind, run_report]
          exact ⟨rfl, id, fun _ h => h⟩
      | draining reported joined =>
          obtain ⟨work, hwork, rfl⟩ := Option.map_eq_some_iff.1 hstep
          obtain ⟨how, -, rfl⟩ := Option.map_eq_some_iff.1 hwork
          rw [does_of_ok (run_close _ how _)]
          exact ⟨rfl, id, fun _ h => by cases h⟩
      | returned => cases hstep
      | launching | reading | preparing | opening | binding | indexing | attaching | reporting
      | waiting => cases hlate
  | stop =>
      cases phase with
      | failing | telling | draining | returned => cases hstep
      | launching | reading | preparing | opening | binding | indexing | attaching | reporting
      | waiting => cases hlate
  | shutdown =>
      cases hstep
      exact ⟨hlate, id, fun _ h => h⟩
  | adapterEnds how =>
      obtain ⟨-, hstep⟩ := Option.ite_none_right_eq_some.1 hstep
      cases hstep
      exact ⟨hlate, by simp, fun _ h => h⟩

/-- What a start has failed with is what is returned. -/
theorem result_of_failing {e : ServiceError} {result : Except ServiceError Unit} (turns : List Turn)
    (h : l.phase = .failing e) (hreturned : (follow s c l turns).phase = .returned result) :
    result = .error e := by
  have hkept : (follow s c l turns).phase.isLate = true ∧
      (follow s c l turns).phase.failed? = some e :=
    follow_induction (P := fun l => l.phase.isLate = true ∧ l.phase.failed? = some e)
      (fun _ _ _ hl hstep => have hnext := late_step hl.1 hstep; ⟨hnext.1, hnext.2.2 e hl.2⟩)
      (by rw [h]; exact ⟨rfl, rfl⟩) turns
  rw [hreturned] at hkept
  cases result with
  | ok _ => cases hkept.2
  | error x => rw [Option.some.inj hkept.2]

/-! ## Every service -/

/-- The two ways from serving to draining, and when they are open. -/
theorem Stands.waits {reported : Except ServiceError Unit} (h : Stands s c l)
    (hphase : l.phase = .waiting reported) :
    ((step? s c l .own).isSome ↔ ∃ how, l.record.adapter = .ended how) ∧
      ((step? s c l .stop).isSome ↔ l.record.shutdown = true ∨ ∃ e, reported = .error e) := by
  cases h with
  | @waiting told _ _ address adapter =>
      cases hphase
      constructor
      · cases adapter <;> simp [step?, work?, Adapter.end?]
      · cases told <;> cases delivery s c .success address.render <;>
          simp [step?, stopped?, ServiceRecord.isTold, Except.isOk, Except.toBool]
  | launching | reading | preparing | opening | binding | indexing | attaching | reporting
  | draining | served | failing | telling | failed => cases hphase

/-- A report that does not arrive ends the service, though nobody outside has told it to stop. -/
theorem Stands.drains_of_unreported {address : SocketAddress} {e : ServiceError}
    (h : Stands s c l) (hphase : l.phase = .reporting address)
    (hlost : delivery s c .success address.render = .error e) :
    (follow s c l [.own, .stop]).phase = .draining (.error e) none ∧
      (follow s c l [.own, .stop]).record.shutdown = l.record.shutdown ∧
      stagesOf (follow s c l [.own, .stop]).record.events =
        [.initializing, .buildingIndex, .serving, .draining] := by
  cases h with
  | @reporting told plan dir address adapter =>
      cases hphase
      have hown : step? s c ⟨.reporting address, mounted dir address, some dir, told, false, adapter⟩
          .own = some ⟨.waiting (.error e), announced s c dir address, some dir, told, true,
            adapter⟩ := by
        simp only [step?, work?, Option.map_some, Life.does, Attempt.run_bind, run_report, hlost]
        rfl
      have hstop : step? s c ⟨.waiting (.error e), announced s c dir address, some dir, told, true,
          adapter⟩ .stop = some ⟨.draining (.error e) none,
            announced s c dir address ++ [.entered .draining], some dir, told, true, adapter⟩ := by
        have htold : ServiceRecord.isTold ⟨announced s c dir address, some dir, told, true,
            adapter⟩ = true := Bool.or_true told
        rw [step?, stopped?, if_pos htold]
        rfl
      rw [follow_of_step hown, follow_of_step hstop, follow_nil]
      exact ⟨rfl, rfl, by simp⟩
  | launching | reading | preparing | opening | binding | indexing | attaching | waiting
  | draining | served | failing | telling | failed => cases hphase

/-- Everything goes well but the report. -/
def unheard : Outcomes where
  chooseStore _ := .ok ()
  makeDirectory _ := .ok ()
  makeTemporary := .ok "/tmp/mount"
  openCache _ := .ok ()
  bind := .ok
  index _ := some (.ok ())
  bindAdapter _ := .ok ()
  send _ _ := .error .connectionRefused
  removeDirectory _ := .ok ()

example : (fun l : Life => (l.phase, stagesOf l.record.events)) (follow unheard
    { uri := "mem://bucket/a.zip", reportTo := some "localhost:1" }
    ⟨.reporting ⟨"127.0.0.1", 2049⟩, { adapter := .running }⟩
    [.own, .stop, .adapterEnds .finished, .own]) =
    (.returned (.error (.report "localhost:1" .connectionRefused)), [.draining, .stopped]) := rfl

/-- The result of a start that has failed, and of a service that has served. -/
theorem Stands.result {result : Except ServiceError Unit} (h : Stands s c l)
    (hphase : l.phase = .returned result) :
    (l.record.adapter = .absent ∧
      ∃ e new dir, result = .error e ∧ Failed s c l.record.shutdown e new dir) ∨
    ∃ address how, .bound address ∈ resourcesOf l.record.events ∧
      l.record.adapter = .ended how ∧
      result = (delivery s c .success address.render >>= fun _ => how.result) := by
  cases h with
  | @served _ _ _ address how =>
      cases hphase
      exact .inr ⟨address, how, by simp, rfl, rfl⟩
  | failed h =>
      cases hphase
      exact .inl ⟨rfl, _, _, _, rfl, h⟩
  | launching | reading | preparing | opening | binding | indexing | attaching | reporting
  | waiting | draining | failing | telling => cases hphase

/-- What can be said of a service at any moment. -/
structure Orderly (s : Outcomes) (c : ServiceConfig) (l : Life) : Prop where
  stages : ∃ course ∈ courses, stagesOf l.record.events <+: course ∧
    ∀ result, l.phase = .returned result → stagesOf l.record.events = course
  /-- Without an address nothing is reported. -/
  quiet : c.reportTo = none → reportsOf l.record.events = []
  /-- With one there is at most one report and at the end there is one, of the address that is
  served on or of a failure. -/
  report : ∀ peer, c.reportTo = some peer →
    (reportsOf l.record.events = [] ∧ ∀ result, l.phase ≠ .returned result) ∨
      ∃ status message, reportsOf l.record.events = [(status, peer, reportLine status message)] ∧
        (status = .success ↔ .serving ∈ stagesOf l.record.events) ∧
        (status = .success → ∃ address, .bound address ∈ l.record.events ∧
          message = address.render)
  line : ∀ report ∈ reportsOf l.record.events, OneLine report.2.2
  socket : ∀ address, .bound address ∈ l.record.events → Readable c
  /-- Who has not served returns why the start has failed. -/
  failure : ∀ result, l.phase = .returned result → .serving ∉ stagesOf l.record.events →
    ∃ e new dir, result = .error e ∧ Failed s c l.record.shutdown e new dir
  /-- And that is so whatever happens after it has failed, a report that is lost included. -/
  lasting : ∀ e turns result, l.phase = .failing e →
    (follow s c l turns).phase = .returned result → result = .error e
  /-- Who has served returns that the report was lost, or else how the adapter ended. -/
  served : ∀ result, l.phase = .returned result → .serving ∈ stagesOf l.record.events →
    ∃ address how, .bound address ∈ l.record.events ∧ l.record.adapter = .ended how ∧
      result = (delivery s c .success address.render >>= fun _ => how.result)
  /-- While serving the service goes on as soon as the adapter ends, and can be told to stop
  from outside; a report that was lost has told it already. -/
  waits : ∀ reported, l.phase = .waiting reported →
    ((step? s c l .own).isSome ↔ ∃ how, l.record.adapter = .ended how) ∧
      ((step? s c l .stop).isSome ↔ l.record.shutdown = true ∨ ∃ e, reported = .error e)
  /-- So a report that is lost leads to draining without a word from outside. -/
  unreported : ∀ address e, l.phase = .reporting address →
    delivery s c .success address.render = .error e →
    (follow s c l [.own, .stop]).phase = .draining (.error e) none ∧
      (follow s c l [.own, .stop]).record.shutdown = l.record.shutdown ∧
      stagesOf (follow s c l [.own, .stop]).record.events =
        [.initializing, .buildingIndex, .serving, .draining]
  idle : step? s c l .own = none → Idle s l
  /-- Once it is told to stop, from outside or by a lost report, the service returns. -/
  ends : l.record.isTold = true →
    ∃ more, .shutdown ∉ more ∧ ∃ result, (follow s c l more).phase = .returned result
  removed : ∀ path, .removedCache path ∈ l.record.events →
    .prepared (.temporary path) ∈ l.record.events ∧ s.removeDirectory path = .ok ()
  cleared : ∀ result, l.phase = .returned result → ∀ path,
    .prepared (.temporary path) ∈ l.record.events → s.removeDirectory path = .ok () →
      .removedCache path ∈ l.record.events
  kept : ∀ path, c.cacheDir = some path →
    (∀ dir, .prepared dir ∈ l.record.events → dir = .kept path) ∧
      ∀ other, .removedCache other ∉ l.record.events

theorem prepareCache_of_some {path : String} (h : c.cacheDir = some path) {dir : CacheDir}
    (hdir : prepareCache s c.cacheDir = .ok dir) : dir = .kept path := by
  rw [h, prepareCache] at hdir
  cases hmake : s.makeDirectory path with
  | ok _ =>
      rw [hmake] at hdir
      exact (Except.ok.inj hdir).symm
  | error e =>
      rw [hmake] at hdir
      cases hdir

theorem Stands.orderly (h : Stands s c l) : Orderly s c l := by
  have hresources := h.resources.1
  have hremoved : ∀ path, .removedCache path ∈ l.record.events →
      .prepared (.temporary path) ∈ l.record.events ∧ s.removeDirectory path = .ok () := by
    intro path hmem
    obtain ⟨hprepared, hok⟩ := hresources.removed ((mem_resourcesOf rfl).2 hmem)
    exact ⟨(mem_resourcesOf rfl).1 hprepared, hok⟩
  have hkept : ∀ path, c.cacheDir = some path →
      ∀ dir, .prepared dir ∈ l.record.events → dir = .kept path :=
    fun path hpath dir hdir =>
      prepareCache_of_some hpath (hresources.prepared ((mem_resourcesOf rfl).2 hdir))
  constructor
  case stages => exact h.stages
  case quiet =>
    intro hnone
    rcases h.reports with ⟨hnothing, -⟩ | ⟨status, message, hreported, -⟩
    · exact hnothing
    · rw [hreported, reported, hnone]
      rfl
  case report =>
    intro peer hpeer
    rcases h.reports with hnothing | ⟨status, message, hreported, hstatus, hmessage⟩
    · exact .inl hnothing
    · refine .inr ⟨status, message, by rw [hreported, reported, hpeer]; rfl,
        hstatus.trans h.serving_mem_iff.symm, fun hsuccess => ?_⟩
      obtain ⟨address, hbound, heq⟩ := hmessage hsuccess
      exact ⟨address, (mem_resourcesOf rfl).1 hbound, heq⟩
  case line =>
    intro report hmem
    rcases h.reports with ⟨hnothing, -⟩ | ⟨status, message, hreported, -⟩
    · simp [hnothing] at hmem
    · rw [hreported, reported, Option.mem_toList, Option.map_eq_some_iff] at hmem
      obtain ⟨peer, -, rfl⟩ := hmem
      exact oneLine_reportLine status message
  case socket => exact fun address hb => hresources.readable ((mem_resourcesOf rfl).2 hb)
  case failure =>
    intro result hphase hserving
    rcases h.result hphase with ⟨-, hfailed⟩ | ⟨address, how, -, hended, -⟩
    · exact hfailed
    · exact absurd (h.serving_mem_iff.2 (by simp [hended])) hserving
  case lasting => exact fun e turns result hphase => result_of_failing turns hphase
  case served =>
    intro result hphase hserving
    rcases h.result hphase with ⟨habsent, -⟩ | ⟨address, how, hbound, hended, hresult⟩
    · exact absurd habsent (h.serving_mem_iff.1 hserving)
    · exact ⟨address, how, (mem_resourcesOf rfl).1 hbound, hended, hresult⟩
  case waits => exact fun reported hphase => h.waits hphase
  case unreported => exact fun address e hphase => h.drains_of_unreported hphase
  case idle => exact h.idle
  case ends => exact h.exists_returned
  case removed => exact hremoved
  case cleared =>
    intro result hphase path hprepared hok
    have hlast := h.resources.2 result hphase
    exact (mem_resourcesOf rfl).1
      (hlast.removed_of_last ((mem_resourcesOf rfl).2 hprepared) hok)
  case kept =>
    intro path hpath
    refine ⟨hkept path hpath, fun other hother => ?_⟩
    cases hkept path hpath _ (hremoved other hother).1

/-- Whatever the steps come to, whenever the service is told to stop and however and whenever
its adapter ends, it is orderly all the time. -/
theorem follow_orderly (s : Outcomes) (c : ServiceConfig) (turns : List Turn) :
    Orderly s c (follow s c {} turns) :=
  (stands_follow s c turns).orderly

/-! ## A run -/

/-- A service that is left alone comes to where it can do nothing by itself. -/
theorem Stands.own_eq_none (h : Stands s c l) {n : Nat} (hn : l.rank ≤ n) :
    step? s c (follow s c l (List.replicate n .own)) .own = none := by
  induction n generalizing l with
  | zero =>
      have hnone : ∀ l', step? s c l .own ≠ some l' := fun l' hstep =>
        absurd (h.onward hstep (by simp)).rank (by omega)
      exact Option.eq_none_iff_forall_ne_some.2 hnone
  | succ n ih =>
      rw [List.replicate_succ]
      cases hown : step? s c l .own with
      | some l' =>
          have honward := h.onward hown (by simp)
          rw [follow_of_step hown]
          exact ih honward.stands (by have := honward.rank; omega)
      | none =>
          have hstays : ∀ m, follow s c l (List.replicate m .own) = l := by
            intro m
            induction m with
            | zero => rfl
            | succ m ih => rw [List.replicate_succ, follow_of_none hown, ih]
          rw [follow_of_none hown, hstays]
          exact hown

theorem rank_le (l : Life) : l.rank ≤ 11 := by
  obtain ⟨phase, r⟩ := l
  have hphase : phase.rank ≤ 10 := by cases phase <;> simp [Phase.rank]
  have hadapter : rankOf r.adapter ≤ 1 := by cases r.adapter <;> simp [rankOf]
  exact Nat.add_le_add hphase hadapter

theorem Stands.idle_undisturbed (h : Stands s c l) : Idle s (follow s c l undisturbed) :=
  have hstands := follow_induction (fun _ _ _ h hstep => h.step hstep) h undisturbed
  hstands.idle (h.own_eq_none (rank_le l))

/-- Where a service can do nothing by itself, it draws near its end when it is told to stop. -/
theorem Idle.late (c : ServiceConfig) (h : Idle s l) :
    (follow s c l [.stop, .shutdown, .stop]).phase.isLate = true := by
  cases h with
  | returned | draining => rfl
  | @indexing plan address r =>
      cases htold : r.shutdown with
      | false =>
          have hstop : step? s c ⟨.indexing plan address, r⟩ .stop = none := by
            simp [step?, stopped?, htold]
          rw [follow_of_none hstop]
          rfl
      | true =>
          have hstop : step? s c ⟨.indexing plan address, r⟩ .stop =
              some ⟨.failing .cancelled, r⟩ := by
            simp [step?, stopped?, htold, Life.does]
          rw [follow_of_step hstop]
          rfl
  | @waiting reported r =>
      cases htold : r.isTold with
      | false =>
          have hstop : step? s c ⟨.waiting reported, r⟩ .stop = none := by
            simp [step?, stopped?, htold]
          rw [follow_of_none hstop]
          rfl
      | true =>
          have hstop : step? s c ⟨.waiting reported, r⟩ .stop = some ⟨.draining reported none,
              { r with events := r.events ++ [.entered .draining], stop := true }⟩ := by
            simp [step?, stopped?, htold, Life.does, run_drain]
          rw [follow_of_step hstop]
          rfl

/-- An adapter that has been running is not after its end. -/
theorem late_adapterEnds (s : Outcomes) (c : ServiceConfig) (h : l.phase.isLate = true)
    (how : AdapterEnd) :
    (follow s c l [.adapterEnds how]).phase.isLate = true ∧
      (follow s c l [.adapterEnds how]).record.adapter ≠ .running := by
  by_cases hrunning : l.record.adapter = .running
  · have hstep : step? s c l (.adapterEnds how) =
        some ⟨l.phase, { l.record with adapter := .ended how }⟩ := if_pos hrunning
    rw [follow_of_step hstep]
    exact ⟨h, by simp⟩
  · have hstep : step? s c l (.adapterEnds how) = none := if_neg hrunning
    rw [follow_of_none hstep]
    exact ⟨h, hrunning⟩

/-- The run of a service comes to its end, so its result is what the service returns. -/
theorem life_returned (s : Surroundings) (c : ServiceConfig) :
    (life s c).phase = .returned (run s c).2 := by
  have hbegin : Stands s.toOutcomes c {} := .launching
  have hlate := late_adapterEnds s.toOutcomes c (hbegin.idle_undisturbed.late c) (adapterEnd s)
  rw [← follow_append] at hlate
  generalize hturned : follow s.toOutcomes c (follow s.toOutcomes c {} undisturbed)
    ([.stop, .shutdown, .stop] ++ [.adapterEnds (adapterEnd s)]) = l at hlate
  have hlife : life s c = follow s.toOutcomes c l undisturbed := by
    rw [life, usual, follow_append, follow_append, ← hturned]
    rfl
  have hstands : Stands s.toOutcomes c l := by
    rw [← hturned, ← follow_append]
    exact stands_follow _ _ _
  have hlast := follow_induction (s := s.toOutcomes) (c := c)
    (P := fun l => l.phase.isLate = true ∧ l.record.adapter ≠ .running)
    (fun _ _ _ hl hstep => have hnext := late_step hl.1 hstep; ⟨hnext.1, hnext.2.1 hl.2⟩)
    hlate undisturbed
  have hend := hstands.idle_undisturbed
  rw [← hlife] at hlast hend
  have hresult : (run s c).2 = (life s c).result := rfl
  rw [hresult]
  generalize life s c = last at hlast hend
  cases hend with
  | returned => rfl
  | indexing | waiting => cases hlast.1
  | draining hrunning => exact absurd hrunning hlast.2

end Service

end ArchiveMount

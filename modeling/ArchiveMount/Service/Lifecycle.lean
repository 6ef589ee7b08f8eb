/-
# `ArchiveMount.Service.Lifecycle` — the life of a mount

A service passes from one stage to the next: it reads its configuration, prepares the
cache, binds a socket and builds the index, serves until it is told to stop, and puts
away what it has made.  It lives side by side with its adapter and with whoever may tell
it to stop, so a `Life` goes on by turns: of the service itself (`work?`), of the service
when it sees that it is to stop (`stopped?`), of the adapter and of the world outside.
How each step turns out is decided by the `Outcomes`; in which order the turns come is
left open, and `run` is the life in one order of them.
-/
import ArchiveMount.Attempt
import ArchiveMount.Service.Error
import ArchiveMount.Service.Report
import ArchiveMount.Service.SocketAddress

namespace ArchiveMount

/-- The directory of a service's cache. -/
inductive CacheDir
  /-- Asked for by name, and kept. -/
  | kept (path : String)
  /-- Made for this service, and removed with it. -/
  | temporary (path : String)
  deriving Repr, DecidableEq

def CacheDir.path : CacheDir → String
  | .kept path => path
  | .temporary path => path

/-- How the steps of a service turn out. -/
structure Outcomes where
  /-- Whether there is a store for a locator. -/
  chooseStore : Locator → Except ObjectError Unit
  makeDirectory : String → Except OsError Unit
  makeTemporary : Except OsError String
  openCache : CacheDir → Except OsError Unit
  /-- The address that a socket for an address is bound to. -/
  bind : SocketAddress → Except OsError SocketAddress
  /-- How the index turns out; none if it is never done. -/
  index : Locator → Option (Except TreeError Unit)
  /-- Whether the NFS adapter can take the bound address over. -/
  bindAdapter : SocketAddress → Except OsError Unit
  /-- Whether a line reaches an address. -/
  send : (address line : String) → Except OsError Unit
  removeDirectory : String → Except OsError Unit

/-- What a service meets when it is run: how its steps turn out, and how its adapter ends
when it is told to stop. -/
structure Surroundings extends Outcomes where
  serve : Except String Unit

/-- How the task of an adapter ends. -/
inductive AdapterEnd
  | finished
  | failed (error : String)
  /-- The task did not come to its own end. -/
  | crashed (error : String)
  deriving Repr, DecidableEq

/-- What the end of an adapter means for the service. -/
def AdapterEnd.result : AdapterEnd → Except ServiceError Unit
  | .finished => .ok ()
  | .failed e => .error (.serve e)
  | .crashed e => .error (.serve s!"adapter task failed: {e}")

/-- The adapter of a service. -/
inductive Adapter
  | absent
  | running
  | ended (how : AdapterEnd)
  deriving Repr, DecidableEq

def Adapter.end? : Adapter → Option AdapterEnd
  | .ended how => some how
  | .absent | .running => none

/-- A notable event in the life of a service. -/
inductive ServiceEvent
  | entered (stage : Stage)
  /-- The directory of the cache is there. -/
  | prepared (dir : CacheDir)
  | bound (address : SocketAddress)
  /-- A report was sent, or at least tried. -/
  | reported (status : ReportStatus) (address line : String)
  | removedCache (path : String)
  /-- A failure was noted. -/
  | noted (text : String)
  deriving Repr, DecidableEq

/-- What a service has done and where its surroundings stand. -/
structure ServiceRecord where
  events : List ServiceEvent := []
  /-- The cache directory in use. -/
  cacheDir : Option CacheDir := none
  /-- Whether the service has been told to stop from outside. -/
  shutdown : Bool := false
  /-- Whether the service has told its adapter to stop. -/
  stop : Bool := false
  adapter : Adapter := .absent
  deriving Repr, DecidableEq

/-- The adapter's token: it is told to stop by the service, or along with it. -/
def ServiceRecord.isTold (r : ServiceRecord) : Bool := r.shutdown || r.stop

namespace Service

/-- A step of a service. -/
abbrev Step := Attempt ServiceRecord ServiceError

def note (e : ServiceEvent) : Step Unit :=
  Attempt.modify fun r => { r with events := r.events ++ [e] }

def enter (stage : Stage) : Step Unit := note (.entered stage)

/-- The cache directory a configuration asks for. -/
def prepareCache (s : Outcomes) : Option String → Except ServiceError CacheDir
  | some path =>
    match s.makeDirectory path with
    | .ok _ => .ok (.kept path)
    | .error e => .error (.config (.cacheDirectory path e))
  | none =>
    match s.makeTemporary with
    | .ok path => .ok (.temporary path)
    | .error e => .error (.config (.temporaryDirectory e))

/-- Remove a cache directory, if it was made for this service.  The result is the failure
to do so. -/
def remove (s : Outcomes) : CacheDir → Step (Option ServiceError)
  | .kept _ => return none
  | .temporary path =>
    match s.removeDirectory path with
    | .ok _ => do
      note (.removedCache path)
      return none
    | .error e => return some (.cleanup path e)

/-- Remove the cache directory in use. -/
def cleanup (s : Outcomes) : Step (Option ServiceError) := do
  let r ← Attempt.get
  match r.cacheDir with
  | some dir => remove s dir
  | none => return none

/-- Open the cache in its directory.  A temporary directory that does not serve is
given up at once, and nobody hears whether that went well. -/
def openCache (s : Outcomes) (dir : CacheDir) : Step Unit := do
  match s.openCache dir with
  | .ok _ => Attempt.modify fun r => { r with cacheDir := some dir }
  | .error e =>
    let _ ← remove s dir
    Attempt.fail (.config (.cacheLayout e))

/-- The address to listen on that a text names. -/
def parseListen (text : String) : Except ServiceError SocketAddress :=
  match SocketAddress.ofText? text with
  | some a => .ok a
  | none => .error (.config (.listenAddress text))

/-- What a configuration asks for. -/
structure Plan where
  protocol : Protocol
  listen : SocketAddress
  locator : Locator
  deriving Repr, DecidableEq

def readConfig (s : Outcomes) (c : ServiceConfig) : Except ServiceError Plan := do
  let protocol ← Protocol.parse c.protocol
  let listen ← parseListen c.listen
  let refuse (e : ObjectError) : ServiceError := .config (.object e)
  let locator ← (Locator.parse c.uri).mapError refuse
  (s.chooseStore locator).mapError refuse
  return { protocol, listen, locator }

/-- Let the adapter of a protocol have the address.  That of NFS binds it anew. -/
def startAdapter (s : Outcomes) (address : SocketAddress) : Protocol → Except ServiceError Unit
  | .nfs => (s.bindAdapter address).mapError (.bind address.render)
  | .webDav => .ok ()

/-- Report how the start went, if anybody is to know. -/
def report (s : Outcomes) (c : ServiceConfig) (status : ReportStatus) (message : String) :
    Step (Except ServiceError Unit) := do
  match c.reportTo with
  | none => return .ok ()
  | some address =>
    let line := reportLine status message
    note (.reported status address line)
    match s.send address line with
    | .ok _ => return .ok ()
    | .error e => do
      let failure := ServiceError.report address e
      note (.noted failure.message)
      return .error failure

/-- What is said of a failed start, and of a directory that could not be removed then. -/
def failureMessage (error : ServiceError) : Option ServiceError → String
  | none => error.message
  | some e => s!"{error.message}; {e.message}"

/-! ## Turns -/

/-- Where a service stands. -/
inductive Phase
  | launching
  | reading
  | preparing (plan : Plan)
  | opening (plan : Plan) (dir : CacheDir)
  | binding (plan : Plan)
  | indexing (plan : Plan) (address : SocketAddress)
  /-- The index is there; the adapter is not. -/
  | attaching (plan : Plan) (address : SocketAddress)
  /-- Serving, and about to say where. -/
  | reporting (address : SocketAddress)
  /-- Serving, until the adapter ends or is told to. -/
  | waiting (reported : Except ServiceError Unit)
  /-- Until the adapter has ended, if it has not. -/
  | draining (reported : Except ServiceError Unit) (joined : Option AdapterEnd)
  /-- The start has failed, and nothing is put away. -/
  | failing (error : ServiceError)
  | telling (error : ServiceError) (message : String)
  | returned (result : Except ServiceError Unit)

def tellToStop : Step Unit := Attempt.modify fun r => { r with stop := true }

def startTask : Step Unit := Attempt.modify fun r => { r with adapter := .running }

/-- Serve no longer. -/
def drain (reported : Except ServiceError Unit) (joined : Option AdapterEnd) : Step Phase := do
  enter .draining
  tellToStop
  return .draining reported joined

/-- Put away after serving.  A report that did not arrive is the failure, whatever the
adapter has come to. -/
def close (s : Outcomes) (reported : Except ServiceError Unit) (how : AdapterEnd) :
    Step Phase := do
  enter .stopped
  let _ ← cleanup s
  return .returned (reported >>= fun _ => how.result)

/-- Put away after a start that failed. -/
def abandon (s : Outcomes) (e : ServiceError) : Step Phase := do
  enter .stopped
  let message := failureMessage e (← cleanup s)
  note (.noted s!"mount server failed to start: {message}")
  return .telling e message

/-- What a service does next by itself; none while it can only wait. -/
def work? (s : Outcomes) (c : ServiceConfig) (adapter : Adapter) : Phase → Option (Step Phase)
  | .launching => some do
    enter .initializing
    return .reading
  | .reading => some do
    return .preparing (← Attempt.ofExcept (readConfig s c))
  | .preparing plan => some do
    let dir ← Attempt.ofExcept (prepareCache s c.cacheDir)
    note (.prepared dir)
    return .opening plan dir
  | .opening plan dir => some do
    openCache s dir
    enter .buildingIndex
    return .binding plan
  | .binding plan => some do
    let refuse := ServiceError.bind plan.listen.render
    let address ← Attempt.ofExcept ((s.bind plan.listen).mapError refuse)
    note (.bound address)
    return .indexing plan address
  | .indexing plan address => (s.index plan.locator).map fun built => do
    Attempt.ofExcept (built.mapError .build)
    return .attaching plan address
  | .attaching plan address => some do
    Attempt.ofExcept (startAdapter s address plan.protocol)
    startTask
    enter .serving
    return .reporting address
  | .reporting address => some do
    let reported ← report s c .success address.render
    -- Nobody has learned where the mount is, so there is nobody to serve.
    if !reported.isOk then tellToStop
    return .waiting reported
  | .waiting reported => adapter.end?.map fun how => drain reported (some how)
  | .draining reported joined => (joined <|> adapter.end?).map fun how => close s reported how
  | .failing e => some (abandon s e)
  | .telling e message => some do
    let _ ← report s c .failure message
    return .returned (.error e)
  | .returned _ => none

/-- What a service does when it sees that it is to stop; none where it does not look, or
sees nothing. -/
def stopped? (r : ServiceRecord) : Phase → Option (Step Phase)
  | .indexing .. => if r.shutdown then some (Attempt.fail .cancelled) else none
  | .waiting reported => if r.isTold then some (drain reported none) else none
  | _ => none

/-- A service at some moment. -/
structure Life where
  phase : Phase := .launching
  record : ServiceRecord := {}

/-- Do some work.  Nothing fails but a start. -/
def Life.does (l : Life) (work : Step Phase) : Life :=
  match work.run l.record with
  | (.ok phase, record) => { phase, record }
  | (.error e, record) => { phase := .failing e, record }

/-- What may happen next. -/
inductive Turn
  /-- The service goes on by itself. -/
  | own
  /-- The service sees that it is to stop. -/
  | stop
  /-- The service is told to stop from outside. -/
  | shutdown
  | adapterEnds (how : AdapterEnd)
  deriving Repr, DecidableEq

/-- One turn, if it can be taken. -/
def step? (s : Outcomes) (c : ServiceConfig) (l : Life) : Turn → Option Life
  | .own => (work? s c l.record.adapter l.phase).map l.does
  | .stop => (stopped? l.record l.phase).map l.does
  | .shutdown => some { l with record := { l.record with shutdown := true } }
  | .adapterEnds how =>
    if l.record.adapter = .running then
      some { l with record := { l.record with adapter := .ended how } }
    else none

/-- Take those turns that can be taken, one after the other. -/
def follow (s : Outcomes) (c : ServiceConfig) (l : Life) (turns : List Turn) : Life :=
  turns.foldl (fun l turn => (step? s c l turn).getD l) l

/-! ## A run -/

/-- Turns enough for a service to come to where it has to wait. -/
def undisturbed : List Turn := List.replicate 11 .own

/-- A service is left alone until it can only wait; it is told to stop if it does not do so
by itself, and its adapter ends after that. -/
def usual (how : AdapterEnd) : List Turn :=
  undisturbed ++ [.stop, .shutdown, .stop, .adapterEnds how] ++ undisturbed

/-- How the adapter ends in some surroundings. -/
def adapterEnd (s : Surroundings) : AdapterEnd :=
  match s.serve with
  | .ok _ => .finished
  | .error e => .failed e

/-- The whole life of a service in some surroundings. -/
def life (s : Surroundings) (c : ServiceConfig) : Life :=
  follow s.toOutcomes c {} (usual (adapterEnd s))

/-- What a service has come to; it is as good as called off before it returns. -/
def Life.result (l : Life) : Except ServiceError Unit :=
  match l.phase with
  | .returned result => result
  | _ => .error .cancelled

/-- Run a service: its events, and how it ended. -/
def run (s : Surroundings) (c : ServiceConfig) : List ServiceEvent × Except ServiceError Unit :=
  let l := life s c
  (l.record.events, l.result)

end Service

end ArchiveMount

/-
# `ArchiveMount.Command.Machine` — the machine a command runs on

Files and sockets are asked here and nowhere else.  What they answer is turned into the
values that the commands work on: the files along a path, the records of a cache
directory, and how each step of a service turns out.
-/
import ArchiveMount.Command.Output
import ArchiveMount.Object.Open
import ArchiveMount.Service.Peer
import ArchiveMount.Service.Session
import Std.Async.DNS
import Std.Async.TCP

namespace ArchiveMount.Machine

open Std.Async

/-! ## Refusals -/

/-- The refusal that an error stands for. -/
def refusal : IO.Error → OsError
  | .noFileOrDirectory .. => .noEntry
  | .alreadyExists .. => .exists_
  | .inappropriateType _ code _ => if code = 21 then .isDirectory else .notDirectory
  | .invalidArgument .. => .invalidArgument
  | .resourceBusy .. => .addressInUse
  | .noSuchThing .. => .connectionRefused
  | _ => .notSupported

/-- Do something that may be refused. -/
def attempt {α : Type} (x : IO α) : IO (Except OsError α) := do
  match ← x.toBaseIO with
  | .ok a => return .ok a
  | .error e => return .error (refusal e)

/-! ## Files -/

/-- What is at a path. -/
def look (path : String) : IO (Option FileNode) := do
  try
    let p ← IO.FS.realPath path
    if ← p.isDir then return some (.directory [])
    else return some (.file (← IO.FS.readBinFile p).toList)
  catch _ => return none

/-- The files on the way down from a directory, as far as they are there. -/
def along (here : String) : List Bytes → IO FileNode
  | [] => return (← look here).getD (.directory [])
  | name :: rest => do
    match ← look here, Text.ofUtf8? name with
    | some (.file content), _ => return .file content
    | _, none => return .directory []
    | _, some text =>
      if text = "" ∨ text = "." then along here rest
      else
        let below := here ++ "/" ++ text
        if (← look below).isNone then return .directory []
        else return .directory [(name, ← along below rest)]

/-- The world that a locator is looked up in: the files along its path.  There is no
network. -/
def worldOf (uri : String) : IO (ObjectWorld Unit) := do
  let path := match Locator.ofText uri with
    | .ok l => if l.scheme = "file" then (localPath? l).getD [] else []
    | .error _ => []
  return { files := ← along "/" (FileNode.components path), network := () }

/-- Nobody answers. -/
def exchange : HttpExchange Unit := fun r => Attempt.fail (.unreachable r.url)

def client : BucketClient Unit where
  head _ _ _ := Attempt.fail .other
  get _ _ _ _ := Attempt.fail .other

/-- The stores, as two environment variables ask for them. -/
def stores : IO (Locator → Except ObjectError (Store (ObjectWorld Unit))) := do
  let endpoint ← IO.getEnv "AWS_ENDPOINT_URL"
  let region ← IO.getEnv "AWS_REGION"
  return ObjectWorld.openStore (BucketConfig.ofEnvironment endpoint region) exchange client

/-! ## Cache directories -/

/-- The records that a cache directory holds. -/
def loadCache (dir : String) : IO Cache := do
  let mut cache : Cache := {}
  for above in ← (← IO.FS.realPath (dir ++ "/objects")).readDir do
    for file in ← above.path.readDir do
      cache := cache.put (above.fileName ++ file.fileName) (← IO.FS.readBinFile file.path).toList
  return cache

/-- Write the records of a cache to its directory. -/
def saveCache (dir : String) (cache : Cache) : IO Unit := do
  for (digest, data) in cache.records do
    let path := dir ++ "/objects/" ++ Cache.recordPath digest
    IO.FS.createDirAll (dir ++ "/objects/" ++ String.ofList (digest.toList.take 2))
    IO.FS.writeBinFile path ⟨data.toArray⟩

/-! ## Sockets -/

/-- An address for a socket. -/
def netAddress? (a : SocketAddress) : Option Std.Net.SocketAddress :=
  let port := UInt16.ofNat a.port
  match Std.Net.IPv4Addr.ofString a.host with
  | some addr => some (.v4 ⟨addr, port⟩)
  | none =>
    let inner := a.host.toList.filter fun c => c ≠ '[' && c ≠ ']'
    (Std.Net.IPv6Addr.ofString (String.ofList inner)).map fun addr => .v6 ⟨addr, port⟩

/-- Look a host name up. -/
def resolve (host : String) (port : Nat) : IO (Option Std.Net.SocketAddress) := do
  try
    let found : Array Std.Net.IPAddr ← (DNS.getAddrInfo host "").block
    match found.toList.head? with
    | some (.v4 addr) => return some (.v4 ⟨addr, UInt16.ofNat port⟩)
    | some (.v6 addr) => return some (.v6 ⟨addr, UInt16.ofNat port⟩)
    | none => return none
  catch _ => return none

/-- Send a line to an address. -/
def send (address line : String) : IO (Except OsError Unit) := do
  let target : Except OsError Std.Net.SocketAddress ← match Peer.ofText address with
    | .error e => pure (.error e)
    | .ok (.numeric a) =>
      pure (match netAddress? a with
        | some target => .ok target
        | none => .error .addressUnavailable)
    | .ok (.named host port) => do
      match ← resolve host port with
      | some target => pure (.ok target)
      | none => pure (.error .unknownHost)
  match target with
  | .error e => return .error e
  | .ok target => attempt do
    let peer ← TCP.Socket.Client.mk
    (do peer.connect target
        peer.send line.toUTF8
        peer.shutdown : Async Unit).block

/-- Listen on an address; also the address that was given. -/
def listen (a : SocketAddress) : IO (Except OsError (TCP.Socket.Server × SocketAddress)) := do
  match netAddress? a with
  | none => return .error .addressUnavailable
  | some target => attempt do
    let server ← TCP.Socket.Server.mk
    server.bind target
    server.listen 128
    match ← server.getSockName with
    | .v4 given => return (server, { a with port := given.port.toNat })
    | .v6 given => return (server, { a with port := given.port.toNat })

/-! ## A service -/

/-- Surroundings in which everything goes well. -/
def favourable : Surroundings where
  chooseStore _ := .ok ()
  makeDirectory _ := .ok ()
  makeTemporary := .ok ""
  openCache _ := .ok ()
  bind := .ok
  index _ := some (.ok ())
  bindAdapter _ := .ok ()
  send _ _ := .ok ()
  serve := .ok ()
  removeDirectory _ := .ok ()

/-- What a service has been given. -/
structure Means where
  surroundings : Surroundings
  server : Option TCP.Socket.Server := none
  cache : Cache := {}
  cacheDir : String := ""

/-- Try the steps of a service one after the other, as far as its configuration and the
steps before let it come.  Of the protocols only WebDAV is served here. -/
def prepare (c : ServiceConfig) (stores : Locator → Except ObjectError (Store (ObjectWorld Unit)))
    (w : ObjectWorld Unit) : IO Means := do
  let base := { favourable.over stores (w, {}) with bindAdapter := fun _ => .error .notSupported }
  let isSound := (Service.run { base with index := favourable.index } c).1.contains
    (.entered .buildingIndex)
  if !isSound then return { surroundings := base }
  let made ← attempt do
    match c.cacheDir with
    | some dir =>
      IO.FS.createDirAll dir
      return dir
    | none => return (← IO.FS.createTempDir).toString
  match made with
  | .error e =>
    let refused := { base with makeDirectory := fun _ => .error e, makeTemporary := .error e }
    return { surroundings := refused }
  | .ok cacheDir =>
    let base := { base with makeTemporary := .ok cacheDir }
    match ← attempt (IO.FS.createDirAll (cacheDir ++ "/objects")) with
    | .error e => return { surroundings := { base with openCache := fun _ => .error e }, cacheDir }
    | .ok _ =>
      let cache ← loadCache cacheDir
      let base := { base with index := (favourable.over stores (w, cache)).index }
      match (SocketAddress.ofText? c.listen).map listen with
      | none => return { surroundings := base, cache, cacheDir }
      | some tried =>
        match ← tried with
        | .error e =>
          return { surroundings := { base with bind := fun _ => .error e }, cache, cacheDir }
        | .ok (server, given) =>
          return { surroundings := { base with bind := fun _ => .ok given },
                   server := some server, cache, cacheDir }

/-- Send what a service reports. -/
def deliver (events : List ServiceEvent) : IO (Except OsError Unit) := do
  for e in events do
    if let .reported _ address line := e then return ← send address line
  return .ok ()

/-! ## Clients -/

/-- The target of a `GET` request. -/
def target? (head : String) : Option String :=
  match Text.pieces (· = ' ') (head.toList.takeWhile (· ≠ '\r')) with
  | [method, target, _] => if method = "GET".toList then some (String.ofList target) else none
  | _ => none

/-- Answer one client after the other, for ever. -/
partial def answerClients (server : TCP.Socket.Server) (store : Store (ObjectWorld Unit)) (t : Tree)
    (keep : Cache → IO Unit) (w : ObjectWorld Unit × Cache) : IO Unit := do
  let peer ← server.accept.block
  let head := ((← (peer.recv? 65536).block).bind String.fromUTF8?).getD ""
  let (a, w) := match target? head with
    | some target => Dav.get store t target w
    | none => ({ status := 405 }, w)
  keep w.2
  let front := s!"HTTP/1.1 {a.status} -\r\nContent-Length: {a.body.length}\r\n"
    ++ "Connection: close\r\n\r\n"
  let _ ← attempt (do peer.send (front.toUTF8 ++ ⟨a.body.toArray⟩)
                      peer.shutdown : Async Unit).block
  answerClients server store t keep w

end ArchiveMount.Machine

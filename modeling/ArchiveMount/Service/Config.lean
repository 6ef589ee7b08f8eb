/-
# `ArchiveMount.Service.Config` — what a mount is asked to be

Protocol and listening address are kept as they were given and read when the service
starts, so that a mistake in them is reported like any other failure to start.
-/
import ArchiveMount.Export.HandleTable

namespace ArchiveMount

/-- The protocols a mount can be exported over. -/
inductive Protocol
  | nfs
  | webDav
  deriving Repr, DecidableEq

namespace Protocol

def name : Protocol → String
  | .nfs => "nfs"
  | .webDav => "webdav"

/-- The protocol a text names, in either case of ASCII letters. -/
def ofText? (text : String) : Option Protocol :=
  let lower := text.map Char.toLower
  if lower = "nfs" then some .nfs
  else if lower = "webdav" then some .webDav
  else none

theorem ofText?_name (p : Protocol) : ofText? p.name = some p := by
  cases p <;> decide +kernel

end Protocol

/-- What a mount is asked to be. -/
structure ServiceConfig where
  uri : String
  protocol : String := Protocol.nfs.name
  listen : String := "127.0.0.1:0"
  /-- A directory to use and keep; without one a temporary directory serves. -/
  cacheDir : Option String := none
  /-- Where the outcome of the start is reported. -/
  reportTo : Option String := none
  handleCapacity : Nat := HandleTable.defaultCapacity
  deriving Repr, DecidableEq

/-- The stages of a service. -/
inductive Stage
  | initializing
  | buildingIndex
  | serving
  | draining
  | stopped
  deriving Repr, DecidableEq

namespace Stage

def name : Stage → String
  | .initializing => "initializing"
  | .buildingIndex => "building index"
  | .serving => "serving"
  | .draining => "draining"
  | .stopped => "stopped"

/-- All stages, in the order they are passed through. -/
def all : List Stage := [.initializing, .buildingIndex, .serving, .draining, .stopped]

end Stage

end ArchiveMount

/-
# `ArchiveMount.Service.Error` — why a service failed

`message` words the failure; `causes` lists the wordings from the outermost to the
innermost cause, as a command line shows them.  The wording of a failure that passes
another one on contains that other's.
-/
import ArchiveMount.Service.Config
import ArchiveMount.Tree.Error

namespace ArchiveMount

/-! ## Causes -/

/-- What lies behind an object error. -/
def ObjectError.causes : ObjectError → List String
  | .http fault => [fault.message]
  | .io e => [e.message]
  | _ => []

/-- What lies behind a tree error. -/
def TreeError.causes : TreeError → List String
  | .object e => e.message :: e.causes
  | .archive .unreadInput => [ArchiveError.unreadInput.message, "failed to write whole buffer"]
  | .archive e => [e.message]
  | .io e => [e.message]
  | _ => []

/-! ## Failures of a service -/

/-- A configuration that cannot be followed. -/
inductive ConfigFault
  | unknownProtocol (text : String)
  | listenAddress (text : String)
  | object (error : ObjectError)
  | cacheDirectory (path : String) (error : OsError)
  | temporaryDirectory (error : OsError)
  | cacheLayout (error : OsError)
  deriving Repr, DecidableEq

def ConfigFault.message : ConfigFault → String
  | .unknownProtocol text =>
    s!"unknown protocol {Text.quoted (text.map Char.toLower)} (expected \"nfs\" or \"webdav\")"
  | .listenAddress text => s!"listen address {Text.quoted text}: invalid socket address syntax"
  | .object e => e.message
  | .cacheDirectory path e => s!"cache directory {path}: {e.message}"
  | .temporaryDirectory e => s!"temporary cache directory: {e.message}"
  | .cacheLayout e => s!"cache directory: IO error: {e.message}"

/-- Why a service failed. -/
inductive ServiceError
  | config (fault : ConfigFault)
  | bind (address : String) (error : OsError)
  | build (error : TreeError)
  /-- The adapter ended with this text. -/
  | serve (text : String)
  | report (address : String) (error : OsError)
  | cleanup (path : String) (error : OsError)
  | cancelled
  deriving Repr, DecidableEq

namespace ServiceError

def message : ServiceError → String
  | .config fault => s!"invalid configuration: {fault.message}"
  | .bind address e => s!"failed to bind {address}: {e.message}"
  | .build e => s!"failed to build archive index: {e.message}"
  | .serve text => s!"server failed: {text}"
  | .report address e => s!"callback to {address} failed: {e.message}"
  | .cleanup path e => s!"failed to remove cache directory {path}: {e.message}"
  | .cancelled => "cancelled before serving"

/-- What lies behind a service error. -/
def causes : ServiceError → List String
  | .bind _ e | .report _ e | .cleanup _ e => [e.message]
  | .build e => e.message :: e.causes
  | _ => []

end ServiceError

/-- The protocol a configuration names. -/
def Protocol.parse (text : String) : Except ServiceError Protocol :=
  match Protocol.ofText? text with
  | some p => .ok p
  | none => .error (.config (.unknownProtocol text))

end ArchiveMount

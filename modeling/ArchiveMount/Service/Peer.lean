/-
# `ArchiveMount.Service.Peer` — whom a report is sent to

An address in numbers is taken as it is; anything else is a host name and a port.
-/
import ArchiveMount.OsError
import ArchiveMount.Quantity
import ArchiveMount.Service.SocketAddress

namespace ArchiveMount

/-- Somebody to connect to. -/
inductive Peer
  | numeric (address : SocketAddress)
  /-- The host has to be looked up. -/
  | named (host : String) (port : Nat)
  deriving Repr, DecidableEq

/-- Read an address; the last colon separates host and port. -/
def Peer.ofText (text : String) : Except OsError Peer :=
  match SocketAddress.ofText? text with
  | some address => .ok (.numeric address)
  | none =>
    match Text.cutAt? ':' text.toList.reverse with
    | none => .error .noPort
    | some (digits, host) =>
      match (decimalWord? digits.reverse).filter (· ≤ 0xffff) with
      | some port => .ok (.named (String.ofList host.reverse) port)
      | none => .error .badPort

end ArchiveMount

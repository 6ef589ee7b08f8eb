/-
# `ArchiveMount.Service.SocketAddress` — addresses to listen on

An address with a port, all in numbers: `127.0.0.1:0` or `[::1]:80`.  Names are not
looked up.
-/
import ArchiveMount.Locator.Address

namespace ArchiveMount

/-- An address and a port. -/
structure SocketAddress where
  /-- The address in canonical form, an IPv6 one in brackets. -/
  host : String
  port : Nat
  deriving Repr, DecidableEq

namespace SocketAddress

def render (a : SocketAddress) : String := s!"{a.host}:{a.port}"

/-- A port in decimal. -/
def port? (s : List Char) : Option Nat :=
  if s.isEmpty then none
  else (Address.number? 10 s).filter (· ≤ 0xffff)

/-- An IPv6 address in canonical form; one that stands for an IPv4 address shows it. -/
def renderIpv6 (pieces : List Nat) : String :=
  match pieces with
  | [0, 0, 0, 0, 0, 0xffff, a, b] => s!"::ffff:{Address.renderIpv4 (a * 0x10000 + b)}"
  | _ => Address.renderIpv6 pieces

/-- The number of a network interface, which may follow an IPv6 address. -/
def scope? (s : List Char) : Option (List Char × Nat) :=
  match s.dropWhile (· ≠ '%') with
  | [] => some (s, 0)
  | _ :: digits =>
    if digits.isEmpty then none
    else ((Address.number? 10 digits).filter (· ≤ 0xffffffff)).map fun n =>
      (s.takeWhile (· ≠ '%'), n)

/-- Read an address. -/
def ofText? (text : String) : Option SocketAddress :=
  match text.toList with
  | '[' :: s => do
    let (address, scope) ← scope? (s.takeWhile (· ≠ ']'))
    let pieces ← Address.ipv6? address
    match s.dropWhile (· ≠ ']') with
    | ']' :: ':' :: digits =>
      let port ← port? digits
      let suffix := if scope = 0 then "" else s!"%{scope}"
      return ⟨s!"[{renderIpv6 pieces}{suffix}]", port⟩
    | _ => none
  | s => do
    let numbers ← (Text.pieces (· = '.') (s.takeWhile (· ≠ ':'))).mapM fun part =>
      if 3 < part.length then none else Address.decimalByte? part
    let port ← port? ((s.dropWhile (· ≠ ':')).drop 1)
    match numbers with
    | [a, b, c, d] => return ⟨s!"{a}.{b}.{c}.{d}", port⟩
    | _ => none

end SocketAddress

end ArchiveMount

/-
# `ArchiveMount.Locator.Host` — hosts

The schemes of the web give their hosts a meaning: percent encoding is undone, names
are lower case, and a name that ends in a number is an IPv4 address.  Any other scheme
takes its host as it stands.  Both admit an IPv6 address in brackets.
-/
import ArchiveMount.Domain.Name
import ArchiveMount.Locator.Address
import ArchiveMount.Locator.Fault
import ArchiveMount.Locator.Percent

namespace ArchiveMount.Host

/-- The IPv6 address that follows an opening bracket. -/
def bracketed (s : List Char) : Except LocatorFault String :=
  if s.getLast? = some ']' then
    match Address.ipv6? s.dropLast with
    | some pieces => .ok s!"[{Address.renderIpv6 pieces}]"
    | none => .error .ipv6
  else .error .ipv6

/-- Characters that a host without a meaning of its own cannot hold. -/
def isForbidden (c : Char) : Bool := "\x00\t\n\r #/:<>?@[\\]^|".contains c

/-- A host of a scheme that gives it no meaning. -/
def ofText : List Char → Except LocatorFault String
  | '[' :: rest => bracketed rest
  | s =>
    if s.any isForbidden then .error .domainCharacter
    else .ok (String.ofList (Percent.encode Percent.inAny s))

/-- A host of one of the schemes of the web. -/
def ofDomain : List Char → Except LocatorFault String
  | '[' :: rest => bracketed rest
  | s =>
    let name := (Text.ofUtf8? (Percent.decode (Text.utf8 (String.ofList s)))).bind fun t =>
      Domain.toAscii? t.toList
    match name with
    | none => .error .internationalName
    | some [] => .error .emptyHost
    | some name =>
      if Address.endsInNumber name then
        match Address.ipv4? name with
        | some value => .ok (Address.renderIpv4 value)
        | none => .error .ipv4
      else .ok (String.ofList name)

end ArchiveMount.Host

/-
# `ArchiveMount.Locator.Parser` — reading a locator

`Locator.ofText` follows the rules browsers have for URLs.  Blanks at either end and
all tabs and line breaks are dropped.  A scheme of the web (`http`, `https`, `ws`,
`wss`, `ftp`) always has a host and takes backslashes for slashes; `file` has a host
at most; every other scheme has one exactly if two slashes follow it.  A text with a
scheme but neither host nor slash is no locator.
-/
import ArchiveMount.Locator.Basic
import ArchiveMount.Locator.Host
import ArchiveMount.Locator.Segments

namespace ArchiveMount

/-- How a scheme treats host and path. -/
inductive SchemeKind
  | web
  | file
  | other
  deriving Repr, DecidableEq

namespace SchemeKind

def ofScheme (scheme : String) : SchemeKind :=
  if scheme = "file" then .file
  else if ["http", "https", "ws", "wss", "ftp"].contains scheme then .web
  else .other

/-- Whether backslashes separate like slashes. -/
def takesBackslash : SchemeKind → Bool
  | .other => false
  | _ => true

end SchemeKind

namespace Locator

/-! ## Scheme -/

/-- Drop blanks and control characters at both ends, and tabs and line breaks
everywhere. -/
def clean (s : List Char) : List Char :=
  let isBlank (c : Char) : Bool := c.toNat ≤ 0x20
  let trimmed := ((s.dropWhile isBlank).reverse.dropWhile isBlank).reverse
  trimmed.filter fun c => !(c = '\t' || c = '\n' || c = '\r')

/-- The scheme, in lower case, and what follows its colon. -/
def splitScheme (s : List Char) : Option (String × List Char) :=
  let isSchemeChar (c : Char) : Bool := c.isAlphanum || c = '+' || c = '-' || c = '.'
  match s.head?, s.dropWhile isSchemeChar with
  | some c, ':' :: rest =>
    if c.isAlpha then
      some (String.ofList ((s.takeWhile isSchemeChar).map Char.toLower), rest)
    else none
  | _, _ => none

/-- The port a scheme has of its own. -/
def defaultPort? (scheme : String) : Option Nat :=
  if scheme = "http" ∨ scheme = "ws" then some 80
  else if scheme = "https" ∨ scheme = "wss" then some 443
  else if scheme = "ftp" then some 21
  else none

/-! ## Authority -/

/-- Cut at the last `@`. -/
def splitAtLastAt (s : List Char) : Option (List Char × List Char) :=
  let after := (s.reverse.takeWhile (· ≠ '@')).reverse
  if after.length < s.length then some (s.take (s.length - after.length - 1), after) else none

/-- Name and password, encoded.  The colon goes if nothing follows it. -/
def encodeUserinfo (s : List Char) : String :=
  let name := Percent.encode Percent.inUserinfo (s.takeWhile (· ≠ ':'))
  let password := Percent.encode Percent.inUserinfo ((s.dropWhile (· ≠ ':')).drop 1)
  String.ofList (if password.isEmpty then name else name ++ ':' :: password)

/-- The host's text and what follows it, which begins with the colon of a port. -/
def splitHost : (inBrackets : Bool) → List Char → List Char × List Char
  | _, [] => ([], [])
  | inBrackets, c :: s =>
    if c = ':' && !inBrackets then ([], c :: s)
    else
      let (host, rest) := splitHost (c = '[' || (inBrackets && c ≠ ']')) s
      (c :: host, rest)

/-- A port, and what follows it: nothing, or a backslash. -/
def readPort (scheme : String) (s : List Char) :
    Except LocatorFault (Option Nat × List Char) :=
  let digits := s.takeWhile Char.isDigit
  let rest := s.dropWhile Char.isDigit
  let n := digits.foldl (fun n c => n * 10 + (c.toNat - 48)) 0
  if 0xffff < n then .error .port
  else if rest.head?.any (· ≠ '\\') then .error .port
  else if digits.isEmpty || some n = defaultPort? scheme then .ok (none, rest)
  else .ok (some n, rest)

/-- Read an authority; `follows` says that something comes after it.  Also what the
port leaves to the path. -/
def readAuthority (scheme : String) (follows : Bool) (s : List Char) :
    Except LocatorFault (Authority × List Char) := do
  let kind := SchemeKind.ofScheme scheme
  let (userinfo, hostAndPort) ← match splitAtLastAt s with
    | none => pure ("", s)
    | some ([], []) => if follows then .error .emptyHost else pure ("", [])
    | some (user, rest) => pure (encodeUserinfo user, rest)
  let (hostText, rest) := splitHost false hostAndPort
  if hostText.isEmpty && kind = .web then .error .emptyHost
  let host ← if kind = .web then Host.ofDomain hostText else Host.ofText hostText
  if host.isEmpty && !rest.isEmpty then .error .emptyHost
  let (port, rest) ← if rest.isEmpty then pure (none, []) else readPort scheme (rest.drop 1)
  if host.isEmpty && !userinfo.isEmpty then .error .emptyHost
  return ({ userinfo, host, port }, rest)

/-- The host of a local file, and the path.  A drive letter in its place belongs to
the path, and `localhost` is no host at all; without a host the path keeps its slash. -/
def readFileHost (s : List Char) : Except LocatorFault (String × List Char) :=
  let isSlash (c : Char) : Bool := c = '/' || c = '\\'
  let hostText := s.takeWhile (!isSlash ·)
  let path := s.dropWhile (!isSlash ·)
  if Segments.isDriveLetter hostText then .ok ("", s)
  else if hostText.isEmpty then .ok ("", path)
  else (Host.ofDomain hostText).map fun host =>
    if host = "localhost" then ("", path) else (host, path.drop 1)

/-! ## The whole -/

/-- What stands before a query and a fragment, and those. -/
def splitTail (s : List Char) : List Char × Option (List Char) × Option (List Char) :=
  let cut (c : Char) (s : List Char) : List Char × Option (List Char) :=
    match s.dropWhile (· ≠ c) with
    | [] => (s, none)
    | _ :: rest => (s.takeWhile (· ≠ c), some rest)
  let (front, fragment) := cut '#' s
  let (front, query) := cut '?' front
  (front, query, fragment)

/-- Read authority and path of a local file.  A drive letter leaves no host. -/
def readFile (front : List Char) : Except LocatorFault (Option Authority × List String) := do
  let isSlash (c : Char) : Bool := c = '/' || c = '\\'
  let (host, path) ← match front with
    | a :: b :: rest => if isSlash a && isSlash b then readFileHost rest else pure ("", front)
    | _ => pure ("", front)
  let (segments, drive) := Segments.ofFileText path
  return (some { host := if drive then "" else host }, segments)

/-- Read authority and path of a web scheme. -/
def readWeb (scheme : String) (follows : Bool) (front : List Char) :
    Except LocatorFault (Option Authority × List String) := do
  let isSlash (c : Char) : Bool := c = '/' || c = '\\'
  let s := front.dropWhile isSlash
  let path := s.dropWhile (!isSlash ·)
  let (authority, _) ← readAuthority scheme (follows || !path.isEmpty)
    (s.takeWhile (!isSlash ·))
  return (some authority, Segments.ofText true (path.drop 1))

/-- Read authority and path of any other scheme. -/
def readOther (scheme : String) (follows : Bool) :
    List Char → Except LocatorFault (Option Authority × List String)
  | '/' :: '/' :: s => do
    let path := s.dropWhile (· ≠ '/')
    let (authority, left) ← readAuthority scheme (follows || !path.isEmpty)
      (s.takeWhile (· ≠ '/'))
    let path := if left.isEmpty then path else '/' :: left ++ path
    return (some authority,
      if path.isEmpty then [] else Segments.ofText false (path.drop 1))
  | '/' :: s => return (none, Segments.ofText false s)
  | _ => .error .rootless

/-- Read a locator. -/
def ofText (text : String) : Except LocatorFault Locator :=
  match splitScheme (clean text.toList) with
  | none => .error .relative
  | some (scheme, rest) => do
    let (front, query, fragment) := splitTail rest
    let follows := query.isSome || fragment.isSome
    let kind := SchemeKind.ofScheme scheme
    let (authority, segments) ← match kind with
      | .file => readFile front
      | .web => readWeb scheme follows front
      | .other => readOther scheme follows front
    let inQuery := if kind.takesBackslash then Percent.inSpecialQuery else Percent.inQuery
    return {
      scheme
      authority
      segments
      query := query.map fun q => String.ofList (Percent.encode inQuery q)
      fragment := fragment.map fun f => String.ofList (Percent.encode Percent.inFragment f) }

end Locator

end ArchiveMount

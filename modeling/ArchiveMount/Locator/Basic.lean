/-
# `ArchiveMount.Locator.Basic` — where an object is

A `Locator` is a hierarchical URL.  For a bucket store its host names the bucket and
its path the key; for a local file there is only a path.  `render` is the one normal
form, and two locators with the same one are the same object to every store.
-/

namespace ArchiveMount

/-- What stands between the double slash and the path. -/
structure Authority where
  /-- Name and password, encoded; empty when there are none. -/
  userinfo : String := ""
  /-- The host; it may be empty. -/
  host : String := ""
  /-- The port, unless it is the scheme's own. -/
  port : Option Nat := none
  deriving Repr, DecidableEq

def Authority.render (a : Authority) : String :=
  (if a.userinfo.isEmpty then "" else a.userinfo ++ "@") ++ a.host
    ++ (match a.port with | some p => s!":{p}" | none => "")

/-- A hierarchical URL in normal form. -/
structure Locator where
  scheme : String
  authority : Option Authority
  /-- The segments of the path, a slash before each. -/
  segments : List String
  query : Option String
  fragment : Option String
  deriving Repr, DecidableEq

namespace Locator

/-- The bucket, host or other container; empty when there is none. -/
def container (l : Locator) : String :=
  match l.authority with
  | some a => a.host
  | none => ""

/-- The path, with its leading slash. -/
def path (l : Locator) : String := String.join (l.segments.map ("/" ++ ·))

/-- The path without slashes at its start. -/
def key (l : Locator) : String :=
  String.ofList (l.path.toList.dropWhile (· = '/'))

/-- What stands between the scheme and the path.  Without an authority a path that
begins with two slashes would be taken for one, so a dot goes before it. -/
def beforePath (l : Locator) : String :=
  match l.authority with
  | some a => "//" ++ a.render
  | none => if l.segments.head? = some "" ∧ 1 < l.segments.length then "/." else ""

/-- The normal form. -/
def render (l : Locator) : String :=
  l.scheme ++ ":" ++ l.beforePath ++ l.path
    ++ (match l.query with | some q => "?" ++ q | none => "")
    ++ (match l.fragment with | some f => "#" ++ f | none => "")

end Locator

end ArchiveMount

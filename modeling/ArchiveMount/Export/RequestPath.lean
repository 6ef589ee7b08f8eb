/-
# `ArchiveMount.Export.RequestPath` — the path of a web request

A request path is printable ASCII and starts with a slash.  A query is dropped, a
fragment refused.  Segments are percent-decoded; `.` and empty ones vanish, `..` takes
one away but may not leave the root, and no decoded segment holds a NUL or a slash.
-/
import ArchiveMount.Locator.Percent
import ArchiveMount.Text.Pieces

namespace ArchiveMount

/-- Why a request path was refused. -/
inductive RequestPathError
  | invalid
  /-- It leaves the root. -/
  | forbidden
  deriving Repr, DecidableEq

namespace RequestPath

/-- Follow one segment from where `stack` leads, innermost first. -/
def step (stack : List Bytes) (segment : List Char) : Except RequestPathError (List Bytes) :=
  let decoded := Percent.decode (Text.utf8 (String.ofList segment))
  if decoded = [] ∨ decoded = [46] then .ok stack
  else if decoded = [46, 46] then
    match stack with
    | [] => .error .forbidden
    | _ :: rest => .ok rest
  else if decoded.any (fun b => b = 0 || b = 47) then .error .invalid
  else .ok (decoded :: stack)

/-- The segments of a request path, outermost first. -/
def segments (text : String) : Except RequestPathError (List Bytes) :=
  let s := text.toList
  let front := s.takeWhile fun c => c ≠ '?' && c ≠ '#'
  if s.any fun c => c.toNat < 32 || 126 < c.toNat then .error .invalid
  else if (s.drop front.length).head? = some '#' then .error .invalid
  else if front.head? ≠ some '/' then .error .invalid
  else (((Text.pieces (· = '/') front).foldlM step []).map List.reverse)

/-- The text of a request path as the tree reads it. -/
def text (segments : List Bytes) : String :=
  Text.ofUtf8Lossy (segments.flatMap fun s => 47 :: s)

end RequestPath

end ArchiveMount

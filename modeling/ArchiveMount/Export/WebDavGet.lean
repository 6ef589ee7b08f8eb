/-
# `ArchiveMount.Export.WebDavGet` — answers to `GET`

A file is answered with its content.  Directories have no page of their own: a client
that leaves the closing slash out is sent on to the path with it, and there the method
is not allowed.
-/
import ArchiveMount.Export.WebDav

namespace ArchiveMount

/-- An answer to a `GET` request. -/
structure DavAnswer where
  status : Nat
  body : Bytes := []
  deriving Repr, DecidableEq

/-- The status that tells a client of a refusal. -/
def DavError.status : DavError → Nat
  | .notFound => 404
  | .forbidden => 403
  | .failure => 500

def RequestPathError.status : RequestPathError → Nat
  | .invalid => 400
  | .forbidden => 403

namespace Dav

variable {σ : Type}

/-- Whether a request path ends in a slash. -/
def isCollection (target : String) : Bool :=
  (target.toList.takeWhile (· ≠ '?')).getLast? = some '/'

/-- The answer to a request for a path. -/
def answer (store : Store σ) (t : Tree) (target : String) :
    Attempt (σ × Cache) Nat DavAnswer := do
  let segments ← Attempt.ofExcept ((RequestPath.segments target).mapError (·.status))
  let what ← Attempt.ofExcept ((metadata t segments).mapError DavError.status)
  if what.isDir then Attempt.fail (if isCollection target then 405 else 302)
  let file ← (openFile store t segments {}).mapError DavError.status
  return { status := 200, body := file.cursor.content }

/-- Answer a `GET` request; a refusal has no body. -/
def get (store : Store σ) (t : Tree) (target : String) (s : σ × Cache) :
    DavAnswer × σ × Cache :=
  match (answer store t target).run s with
  | (.ok a, s) => (a, s)
  | (.error status, s) => ({ status }, s)

end Dav

end ArchiveMount

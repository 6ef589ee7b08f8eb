/-
# `ArchiveMount.Tree.Error` — why the tree refused a request

A path can be missing or of the wrong kind, an entry can be of a kind that is not
read, and whatever the layers below report is passed through.
-/
import ArchiveMount.Archive.Error
import ArchiveMount.Object.Error
import ArchiveMount.Tree.Path

namespace ArchiveMount

/-- Why an entry that is there cannot be read. -/
inductive Unreadable
  | encrypted
  | method (id : Nat)
  deriving Repr, DecidableEq

def Unreadable.message : Unreadable → String
  | .encrypted => "entry is encrypted"
  | .method id => s!"compression method {id}"

/-- Why the tree refused a request. -/
inductive TreeError
  | notFound (path : String)
  | isDirectory (path : TreePath)
  | notDirectory (path : TreePath)
  | unreadable (path : TreePath) (reason : Unreadable)
  | object (error : ObjectError)
  | archive (error : ArchiveError)
  | io (error : OsError)
  deriving Repr, DecidableEq

namespace TreeError

def message : TreeError → String
  | .notFound path => s!"no such entry: {path}"
  | .isDirectory path => s!"is a directory: {path.render}"
  | .notDirectory path => s!"not a directory: {path.render}"
  | .unreadable path reason => s!"cannot read {path.render}: {reason.message}"
  | .object e => s!"remote error: {e.message}"
  | .archive e => s!"archive error: {e.message}"
  | .io e => s!"IO error: {e.message}"

/-- Whether the entry, or the archive itself, does not exist. -/
def isNotFound : TreeError → Bool
  | .notFound _ => true
  | .object e => e.isNotFound
  | _ => false

end TreeError

end ArchiveMount

/-
# `ArchiveMount.Object.Open` — which store serves a locator

The scheme of a locator chooses the store.  `openStore` gives that store as one over
an `ObjectWorld`, which holds what any of them works on.
-/
import ArchiveMount.Object.Bucket
import ArchiveMount.Object.File

namespace ArchiveMount

/-- The kinds of stores that a scheme can choose. -/
inductive StoreKind
  | bucket
  | http
  | file
  deriving Repr, DecidableEq

/-- The store that serves a locator's scheme.  Objects in memory have none: only who
holds them can serve them. -/
def StoreKind.ofLocator (l : Locator) : Except ObjectError StoreKind :=
  if l.scheme = "s3" then .ok .bucket
  else if l.scheme = "http" ∨ l.scheme = "https" then .ok .http
  else if l.scheme = "file" then .ok .file
  else .error (.unsupportedScheme l.scheme)

/-- Where objects are found: local files, a network, and the regions that buckets are
known to be served from. -/
structure ObjectWorld (σ : Type) where
  files : FileNode
  network : σ
  regions : RouteCache String := {}

namespace ObjectWorld

variable {σ : Type}

/-- The store that serves a locator. -/
def openStore (config : BucketConfig) (exchange : HttpExchange σ) (client : BucketClient σ)
    (l : Locator) : Except ObjectError (Store (ObjectWorld σ)) :=
  (StoreKind.ofLocator l).map fun
    | .bucket =>
      (BucketStore.store config exchange client).within
        (fun w => (w.network, w.regions))
        fun w s => { w with network := s.1, regions := s.2 }
    | .http =>
      (HttpStore.store exchange).within ObjectWorld.network
        fun w s => { w with network := s }
    | .file =>
      FileStore.store.within ObjectWorld.files fun w s => { w with files := s }

end ObjectWorld

end ArchiveMount

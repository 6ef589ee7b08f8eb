/-
# `ArchiveMount.Object.Memory` — objects held in memory

The store keeps its objects by the text they were put under and finds them by the
normal form of a locator.  It counts the downloads it is asked for, those that fail
included, and can be told to fail them all.
-/
import ArchiveMount.Object.Store

namespace ArchiveMount

/-- Objects in memory. -/
structure MemoryStore where
  objects : List (String × Bytes) := []
  downloads : Nat := 0
  failing : Bool := false

namespace MemoryStore

/-- Length of the chunks a body is delivered in. -/
def chunkLen : Nat := 8 * 1024

/-- Put an object under a text, in place of any other. -/
def insert (m : MemoryStore) (text : String) (data : Bytes) : MemoryStore :=
  { m with objects := (text, data) :: m.objects.filter (·.1 ≠ text) }

/-- The object a locator names. -/
def object (m : MemoryStore) (l : Locator) : Except ObjectError Bytes :=
  match m.objects.lookup l.render with
  | some data => .ok data
  | none => .error (.notFound l.render)

/-- The bytes of a range, in chunks. -/
def serve (data : Bytes) (range : ByteRange) : Body :=
  let span := range.resolve data.length
  { chunks := chunksOf (chunkLen - 1) (Bytes.slice data span.start span.len) }

/-- Access to the objects. -/
def store : Store MemoryStore where
  sizeOf l := do
    let m ← Attempt.get
    let data ← m.object l
    return data.length
  download l range := do
    Attempt.modify fun m => { m with downloads := m.downloads + 1 }
    let m ← Attempt.get
    if m.failing then Attempt.fail (.store (.injected l.render))
    let data ← m.object l
    return serve data range

end MemoryStore

end ArchiveMount

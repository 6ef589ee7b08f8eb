/-
# `ArchiveMount.Archive.Trailer` — from the end of an archive to its directory

`scanTail` looks at a window on the end of an archive and says what comes next: the
directory is located, or a 64-bit record has to be fetched first, or the window is
too small to tell.  `resolveZip64` finishes the second case.
-/
import ArchiveMount.Archive.Zip64

namespace ArchiveMount

/-- What a window on the end of an archive shows. -/
inductive TailScan
  /-- The end record, whose directory bounds are sound. -/
  | directory (end_ : EndRecord)
  /-- The 64-bit record at `recordOffset` has to be read as well. -/
  | zip64 (end_ : EndRecord) (recordOffset : Nat)
  /-- No end record in sight; a larger window may hold one. -/
  | notFound
  deriving Repr, DecidableEq

/-- Length of the first window. -/
def initialTailLen : Nat := 64 * 1024

/-- The locator that ends where the end record at `pos` begins, if there is one. -/
def locatorBefore (tail : Bytes) (pos : Nat) : Option Nat :=
  if pos < Zip64Locator.len then none
  else Zip64Locator.recordOffset?
    (Bytes.slice tail (pos - Zip64Locator.len) Zip64Locator.len)

/-- Look at `tail`, the bytes of an archive from `tailOffset` to its end. -/
def scanTail (tail : Bytes) (tailOffset : Nat) : Except ArchiveError TailScan :=
  match EndRecord.find tail with
  | none => .ok .notFound
  | some (pos, r) =>
    match locatorBefore tail pos with
    | some recordOffset => .ok (.zip64 r recordOffset)
    | none =>
      if r.needsZip64 then
        if pos < Zip64Locator.len ∧ 0 < tailOffset then .ok .notFound
        else .error (.malformed .noZip64Locator)
      else do
        r.checkSupported
        r.checkBounds (tailOffset + pos)
        return .directory r

/-- Apply the 64-bit record that was read from `recordOffset`. -/
def resolveZip64 (r : EndRecord) (record : Bytes) (recordOffset : Nat) :
    Except ArchiveError EndRecord := do
  let z ← Zip64EndRecord.parse record
  let wide := r.widen z
  wide.checkSupported
  wide.checkBounds recordOffset
  return wide

end ArchiveMount

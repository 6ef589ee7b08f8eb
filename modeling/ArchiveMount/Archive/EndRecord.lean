/-
# `ArchiveMount.Archive.EndRecord` — the record that ends an archive

The last record of an archive tells where the central directory lies.  It is found
by its signature and by a check that leaves no doubt: its comment must reach the
last byte exactly.  `EndRecord.find` answers the last such place among those a
comment of at most 65535 bytes leaves open.
-/
import ArchiveMount.Archive.Error
import ArchiveMount.Quantity

namespace ArchiveMount

/-- The end-of-central-directory record. -/
structure EndRecord where
  diskNumber : Nat
  directoryDisk : Nat
  entries : Nat
  directorySize : Nat
  directoryOffset : Nat
  commentLen : Nat
  deriving Repr, DecidableEq

namespace EndRecord

def signature : Nat := 0x06054b50

/-- Length without the comment. -/
def fixedLen : Nat := 22

/-- The longest comment a 16-bit length admits. -/
def maxCommentLen : Nat := 0xffff

/-- The fields of a record that is known to be complete. -/
def ofFields (b : Bytes) : EndRecord where
  diskNumber := Bytes.field b 4 2
  directoryDisk := Bytes.field b 6 2
  entries := Bytes.field b 10 2
  directorySize := Bytes.field b 12 4
  directoryOffset := Bytes.field b 16 4
  commentLen := Bytes.field b 20 2

/-- Read the record at the start of `b`. -/
def parse (b : Bytes) : Except ArchiveError EndRecord :=
  if b.length < 4 then .error (.malformed (.truncated .endRecord))
  else if Bytes.field b 0 4 ≠ signature then .error (.malformed .noEndRecord)
  else if b.length < fixedLen then .error (.malformed (.truncated .endRecord))
  else .ok (ofFields b)

/-! ## Finding the record -/

/-- The record at the start of `rest`, which holds `len` bytes, if its comment ends
where `rest` ends. -/
def candidate (rest : Bytes) (len : Nat) : Option EndRecord :=
  if Bytes.field rest 0 4 = signature ∧ fixedLen ≤ len
      ∧ fixedLen + Bytes.field rest 20 2 = len then
    some (ofFields rest)
  else none

/-- The last candidate in `rest`, which stands at position `pos` and holds `len`
bytes; `best` if there is none. -/
def lastCandidate (pos : Nat) : (rest : Bytes) → (len : Nat) →
    (best : Option (Nat × EndRecord)) → Option (Nat × EndRecord)
  | [], _, best => best
  | b :: rest, len, best =>
    let best := match candidate (b :: rest) len with
      | some r => some (pos, r)
      | none => best
    lastCandidate (pos + 1) rest (len - 1) best

/-- Search the end of an archive for the record, backwards.  Only the places that a
comment of the greatest length leaves open are looked at. -/
def find (tail : Bytes) : Option (Nat × EndRecord) :=
  let len := min tail.length (fixedLen + maxCommentLen)
  let skip := tail.length - len
  lastCandidate skip (tail.drop skip) len none

/-! ## What the record says -/

/-- Some field is saturated, so that the true value is in a ZIP64 record. -/
def needsZip64 (r : EndRecord) : Bool :=
  r.diskNumber = 0xffff || r.directoryDisk = 0xffff || r.entries = 0xffff
    || r.directorySize = 0xffffffff || r.directoryOffset = 0xffffffff

/-- Archives over several disks are not read. -/
def checkSupported (r : EndRecord) : Except ArchiveError Unit :=
  if r.diskNumber ≠ 0 ∨ r.directoryDisk ≠ 0 then .error (.unsupported .multiDisk)
  else .ok ()

/-- The directory must end where `limit` stands, or before. -/
def checkBounds (r : EndRecord) (limit : Nat) : Except ArchiveError Unit :=
  let stop := r.directoryOffset + r.directorySize
  if maxWord < stop then .error (.malformed .directoryOverflow)
  else if limit < stop then
    .error (.malformed (.directoryPastEnd r.directorySize r.directoryOffset limit))
  else .ok ()

end EndRecord

end ArchiveMount

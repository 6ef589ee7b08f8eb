/-
# `ArchiveMount.Archive.Directory` — the central directory

The directory is a run of records, each a fixed header followed by a name, extra
fields and a comment.  `CentralDirectory.parse` reads exactly as many records as the
end record promises and refuses a directory that visibly goes on.

Two extra fields matter: the ZIP64 one replaces each of size, compressed size and
header offset that is saturated, in this order, and the extended timestamp replaces
the modification time.
-/
import ArchiveMount.Archive.Entry
import ArchiveMount.Archive.Error
import ArchiveMount.Text.Utf8

namespace ArchiveMount

/-! ## Extra fields -/

/-- The numbered fields of an extra block, up to the first that is cut short. -/
def extraFields (b : Bytes) : List (Nat × Bytes) :=
  match b with
  | b0 :: b1 :: b2 :: b3 :: rest =>
    let id := Bytes.toNat [b0, b1]
    let len := Bytes.toNat [b2, b3]
    if (rest.take len).length < len then []
    else (id, rest.take len) :: extraFields (rest.drop len)
  | _ => []
  termination_by b.length

namespace EntryRecord

/-- Value of a 32-bit field whose true value stands in the ZIP64 extra field. -/
def saturated : Nat := 0xffffffff

/-- Replace a saturated number by the next 64-bit number of the field. -/
def widen (n : Nat) (field : Bytes) : Except ArchiveError (Nat × Bytes) :=
  if n ≠ saturated then .ok (n, field)
  else if (field.take 8).length < 8 then .error (.malformed (.truncated .zip64Extra))
  else .ok (Bytes.field field 0 8, field.drop 8)

/-- Apply a ZIP64 extra field. -/
def applyZip64 (r : EntryRecord) (field : Bytes) : Except ArchiveError EntryRecord := do
  let (size, field) ← widen r.size field
  let (compressedSize, field) ← widen r.compressedSize field
  let (headerOffset, _) ← widen r.headerOffset field
  return { r with size, compressedSize, headerOffset }

/-- Apply an extended timestamp: a byte of flags, and when its lowest bit is set the
modification time as a signed 32-bit count of seconds. -/
def applyTimestamp (r : EntryRecord) (field : Bytes) : EntryRecord :=
  if 5 ≤ field.length ∧ Bytes.field field 0 1 % 2 = 1 then
    let n := Bytes.field field 1 4
    { r with modified := Timestamp.ofUnixSeconds (if n < 0x80000000 then n else n - 0x100000000) }
  else r

/-- Apply one extra field; unknown ones change nothing. -/
def applyExtra (r : EntryRecord) : Nat × Bytes → Except ArchiveError EntryRecord
  | (0x0001, field) => r.applyZip64 field
  | (0x5455, field) => .ok (r.applyTimestamp field)
  | _ => .ok r

end EntryRecord

/-! ## One record -/

namespace CentralDirectory

def signature : Nat := 0x02014b50

/-- Length of a record's fixed header. -/
def headerLen : Nat := 46

/-- The host number of archives written on Unix. -/
def hostUnix : Nat := 3

/-- The file type bits of a Unix mode, and the type of directories among them. -/
def isUnixDir (mode : Nat) : Bool := mode &&& 0o170000 = 0o040000

/-- The mode bits of a record, which only Unix archives carry; all zero means none. -/
def unixMode? (madeBy externalAttrs : Nat) : Option Nat :=
  let mode := externalAttrs / 0x10000
  if madeBy / 256 = hostUnix ∧ mode ≠ 0 then some mode else none

/-- A record's name: flag bit 11 promises UTF-8, anything else is read leniently. -/
def recordName (index flags : Nat) (raw : Bytes) : Except ArchiveError String :=
  if flags.testBit 11 then
    match Text.ofUtf8? raw with
    | some name => .ok name
    | none => .error (.malformed (.recordName index))
  else .ok (Text.ofUtf8Lossy raw)

/-- Whether a record stands for a directory: by its name, its Unix type or its DOS
attribute. -/
def recordIsDir (name : String) (mode : Option Nat) (externalAttrs : Nat) : Bool :=
  name.toList.getLast? = some '/' || mode.any isUnixDir || externalAttrs.testBit 4

/-- Read one record and what follows it; `index` is its place in the directory. -/
def parseRecord (index : Nat) (b : Bytes) : Except ArchiveError (EntryRecord × Bytes) := do
  let field (start width : Nat) := Bytes.field b start width
  if field 0 4 ≠ signature then
    .error (.malformed (.recordSignature index (field 0 4)))
  let flags := field 8 2
  let nameLen := field 28 2
  let extraLen := field 30 2
  let commentLen := field 32 2
  let rest := b.drop headerLen
  if (rest.take (nameLen + extraLen + commentLen)).length < nameLen + extraLen + commentLen then
    .error (.malformed (.truncated .directory))
  let name ← recordName index flags (rest.take nameLen)
  let mode := unixMode? (field 4 2) (field 38 4)
  let bare : EntryRecord := {
    name
    isDir := recordIsDir name mode (field 38 4)
    size := field 24 4
    compressedSize := field 20 4
    crc32 := UInt32.ofNat (field 16 4)
    compression := Compression.ofId (field 10 2)
    headerOffset := field 42 4
    modified := Timestamp.ofDos (field 14 2) (field 12 2)
    unixMode := mode
    encrypted := flags % 2 = 1 }
  let record ← (extraFields (Bytes.slice rest nameLen extraLen)).foldlM
    EntryRecord.applyExtra bare
  return (record, rest.drop (nameLen + extraLen + commentLen))

/-! ## The whole directory -/

/-- Read `left` more records after the first `index`; also what is left over. -/
def parseRecords (expected : Nat) : (left index : Nat) → (b : Bytes) → (done : List EntryRecord) →
    Except ArchiveError (List EntryRecord × Bytes)
  | 0, _, b, done => .ok (done.reverse, b)
  | left + 1, index, b, done =>
    if (b.take headerLen).length < headerLen then
      .error (.malformed (.recordsMissing index expected))
    else do
      let (record, rest) ← parseRecord index b
      parseRecords expected left (index + 1) rest (record :: done)

/-- Read a complete directory of `expected` records. -/
def parse (b : Bytes) (expected : Nat) : Except ArchiveError (List EntryRecord) := do
  let (records, rest) ← parseRecords expected expected 0 b []
  if (rest.take 4).length = 4 ∧ Bytes.field rest 0 4 = signature then
    .error (.malformed (.recordsLeftOver expected))
  return records

end CentralDirectory

end ArchiveMount

/-
# `ArchiveMount.Archive.Zip64` — the 64-bit end record

Archives too large for the classic end record carry a second one with 64-bit
fields, and a locator just before the classic record that says where it stands.
-/
import ArchiveMount.Archive.EndRecord

namespace ArchiveMount

namespace Zip64Locator

def signature : Nat := 0x07064b50

def len : Nat := 20

/-- The offset of the 64-bit record, if the bytes begin with a locator. -/
def recordOffset? (b : Bytes) : Option Nat :=
  if b.length < len ∨ Bytes.field b 0 4 ≠ signature then none
  else some (Bytes.field b 8 8)

end Zip64Locator

/-- The 64-bit end-of-central-directory record. -/
structure Zip64EndRecord where
  diskNumber : Nat
  directoryDisk : Nat
  entries : Nat
  directorySize : Nat
  directoryOffset : Nat
  deriving Repr, DecidableEq

namespace Zip64EndRecord

def signature : Nat := 0x06064b50

/-- Length of the fields that are read. -/
def fixedLen : Nat := 56

/-- Read the record at the start of `b`. -/
def parse (b : Bytes) : Except ArchiveError Zip64EndRecord :=
  if b.length < 4 then .error (.malformed (.truncated .zip64EndRecord))
  else if Bytes.field b 0 4 ≠ signature then .error (.malformed .zip64Signature)
  else if b.length < fixedLen then .error (.malformed (.truncated .zip64EndRecord))
  else .ok {
    diskNumber := Bytes.field b 16 4
    directoryDisk := Bytes.field b 20 4
    entries := Bytes.field b 32 8
    directorySize := Bytes.field b 40 8
    directoryOffset := Bytes.field b 48 8 }

end Zip64EndRecord

/-- The classic record with the 64-bit fields in place of its own. -/
def EndRecord.widen (r : EndRecord) (z : Zip64EndRecord) : EndRecord :=
  { r with
    diskNumber := z.diskNumber
    directoryDisk := z.directoryDisk
    entries := z.entries
    directorySize := z.directorySize
    directoryOffset := z.directoryOffset }

end ArchiveMount

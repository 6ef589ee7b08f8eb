/-
# `ArchiveMount.Archive.LocalHeader` — the header before a payload

The local header repeats an entry's name and carries extra fields of its own, so
only it tells where the payload begins.
-/
import ArchiveMount.Archive.Error

namespace ArchiveMount

/-- The lengths a local header gives for what follows its fixed part. -/
structure LocalHeader where
  nameLen : Nat
  extraLen : Nat
  deriving Repr, DecidableEq

namespace LocalHeader

def signature : Nat := 0x04034b50

/-- Length of the fixed part. -/
def fixedLen : Nat := 30

/-- Read the fixed part. -/
def parse (b : Bytes) : Except ArchiveError LocalHeader :=
  if b.length < 4 then .error (.malformed (.truncated .localHeader))
  else if Bytes.field b 0 4 ≠ signature then
    .error (.malformed (.localSignature (Bytes.field b 0 4)))
  else if b.length < fixedLen then .error (.malformed (.truncated .localHeader))
  else .ok ⟨Bytes.field b 26 2, Bytes.field b 28 2⟩

/-- Where the payload of the entry whose header stands at `headerOffset` begins. -/
def dataOffset (h : LocalHeader) (headerOffset : Nat) : Nat :=
  headerOffset + fixedLen + h.nameLen + h.extraLen

end LocalHeader

end ArchiveMount

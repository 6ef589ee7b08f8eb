/-
# `ArchiveMount.Checksum` — CRC-32

The checksum every archive entry carries: the reflected polynomial `0xEDB88320`,
register preset to all ones and complemented at the end.  It is computed a bit at
a time, so that `Crc32.bit` is the whole of the arithmetic; `Crc32.update` runs it
over a chunk, and `update_append` says that chunks may be cut anywhere.
-/
import ArchiveMount.Bytes

namespace ArchiveMount.Crc32

/-- One shift of the register. -/
def bit (s : UInt32) : UInt32 :=
  if s &&& 1 = 1 then (s >>> 1) ^^^ 0xEDB88320 else s >>> 1

/-- The register after one more byte. -/
def byte (s : UInt32) (b : UInt8) : UInt32 :=
  bit (bit (bit (bit (bit (bit (bit (bit (s ^^^ b.toUInt32))))))))

/-- The register before the first byte. -/
def init : UInt32 := 0xFFFFFFFF

/-- The register after a chunk. -/
def update (s : UInt32) (chunk : Bytes) : UInt32 := chunk.foldl byte s

/-- The checksum a register stands for. -/
def finish (s : UInt32) : UInt32 := s ^^^ 0xFFFFFFFF

@[simp] theorem update_nil (s : UInt32) : update s [] = s := rfl

theorem update_append (s : UInt32) (a b : Bytes) : update s (a ++ b) = update (update s a) b :=
  List.foldl_append

end ArchiveMount.Crc32

namespace ArchiveMount

/-- The CRC-32 of a byte string. -/
def crc32 (b : Bytes) : UInt32 := Crc32.finish (Crc32.update Crc32.init b)

end ArchiveMount

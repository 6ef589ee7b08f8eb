/-
# `ArchiveMount.Cache.Key` — what a cache record is filed under

A key holds everything that decides the bytes of its record, and a record is named by
the digest of the key's `encoding`.  Numbers have a fixed width, so that the encoding
of a key can be taken apart from its end.
-/
import ArchiveMount.Cache.Blake3
import ArchiveMount.Text.Utf8

namespace ArchiveMount

/-- The identity of a cache record. -/
inductive CacheKey
  /-- The decoded payload of an entry. -/
  | entry (locator : String) (headerOffset compressedSize size : Nat) (crc : UInt32)
  /-- The bytes from `start` to `stop` of an object of `objectSize` bytes. -/
  | range (locator : String) (objectSize start stop : Nat)
  deriving Repr, DecidableEq

namespace CacheKey

/-- A 64-bit number. -/
def word (n : Nat) : Bytes := Bytes.ofNat 8 n

/-- The bytes a key is digested from: its kind and the locator, each ended by a zero,
then its numbers. -/
def encoding : CacheKey → Bytes
  | .entry locator headerOffset compressedSize size crc =>
    Text.utf8 "entry" ++ 0 :: Text.utf8 locator ++ 0 :: word headerOffset
      ++ word compressedSize ++ word size ++ Bytes.ofNat 4 crc.toNat
  | .range locator objectSize start stop =>
    Text.utf8 "range" ++ 0 :: Text.utf8 locator ++ 0 :: word objectSize
      ++ word start ++ word stop

/-- The name of the record. -/
def digest (k : CacheKey) : String := Bytes.hex (Blake3.hash k.encoding)

end CacheKey

end ArchiveMount

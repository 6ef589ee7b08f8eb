/-
# `ArchiveMount.Archive.Entry` — one record of the central directory

What an archive says about a file or directory, with the extra fields already
applied: sizes and offset at their full width, the better of the two modification
times.  The name is as stored; nothing here looks at its components.
-/
import ArchiveMount.Archive.Timestamp

namespace ArchiveMount

/-- How a payload is stored.  Only the first two can be decoded. -/
inductive Compression
  | stored
  | deflated
  | other (id : Nat)
  deriving Repr, DecidableEq

namespace Compression

def ofId : Nat → Compression
  | 0 => .stored
  | 8 => .deflated
  | id => .other id

def id : Compression → Nat
  | .stored => 0
  | .deflated => 8
  | .other id => id

theorem id_ofId (n : Nat) : (ofId n).id = n := by
  unfold ofId
  split <;> rfl

end Compression

/-- One central directory record. -/
structure EntryRecord where
  name : String
  isDir : Bool
  size : Nat
  compressedSize : Nat
  crc32 : UInt32
  compression : Compression
  headerOffset : Nat
  modified : Nat
  unixMode : Option Nat
  encrypted : Bool
  deriving Repr, DecidableEq

/-- The permission bits of a mode, without the file type. -/
def permissionBits (mode : Nat) : Nat := mode &&& 0o7777

end ArchiveMount

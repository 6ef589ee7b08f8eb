/-
# `ArchiveMount.Archive.Error` — what can be wrong with an archive

Every refusal of the archive layer is an `ArchiveError`.  Most of them say that the
bytes do not follow the format; those carry a `Fault`, one constructor for each rule
that can be broken.  `Fault.message` and `ArchiveError.message` hold all the wording.
-/
import ArchiveMount.Bytes
import ArchiveMount.Text.Quoted

namespace ArchiveMount

/-- The parts of an archive that are read field by field. -/
inductive Part
  | endRecord
  | zip64EndRecord
  | directory
  | zip64Extra
  | localHeader
  deriving Repr, DecidableEq

def Part.name : Part → String
  | .endRecord => "end of central directory record"
  | .zip64EndRecord => "zip64 end of central directory record"
  | .directory => "central directory"
  | .zip64Extra => "zip64 extra field"
  | .localHeader => "local file header"

/-- A broken rule of the archive format. -/
inductive Fault
  /-- The bytes end inside a part. -/
  | truncated (part : Part)
  | noEndRecord
  | noZip64Locator
  | zip64Signature
  /-- Offset and size of the directory do not add up in 64 bits. -/
  | directoryOverflow
  /-- The directory reaches past the record that ends it. -/
  | directoryPastEnd (size offset limit : Nat)
  | directoryOutside
  /-- Fewer bytes remain than one more directory record needs. -/
  | recordsMissing (found expected : Nat)
  | recordsLeftOver (expected : Nat)
  | recordSignature (index signature : Nat)
  | recordName (index : Nat)
  | localSignature (signature : Nat)
  | corruptDeflate
  /-- Bits without meaning after the last output that there was room for. -/
  | corruptEnd
  | payloadTooLong (limit : Nat)
  | objectTooSmall (size : Nat)
  | entryOutside (name : String) (offset objectSize : Nat)
  | payloadPastEnd (path : String)
  deriving Repr, DecidableEq

/-- A 32-bit number the way signatures and checksums are shown. -/
def hex32 (n : Nat) : String := s!"0x{Bytes.hexNat 8 n}"

def Fault.message : Fault → String
  | .truncated part => s!"{part.name} truncated"
  | .noEndRecord => "end of central directory record not found"
  | .noZip64Locator => "zip64 end of central directory locator missing"
  | .zip64Signature => "zip64 end of central directory record has a bad signature"
  | .directoryOverflow => "central directory bounds overflow"
  | .directoryPastEnd size offset limit =>
    s!"central directory ({size} bytes at {offset}) runs past its end record at {limit}"
  | .directoryOutside => "central directory lies outside the archive"
  | .recordsMissing found expected =>
    s!"central directory truncated after {found} of {expected} records"
  | .recordsLeftOver expected =>
    s!"central directory holds more than the {expected} records its end record declares"
  | .recordSignature index signature =>
    s!"central directory record {index} has bad signature {hex32 signature}"
  | .recordName index => s!"central directory record {index} has a name that is not UTF-8"
  | .localSignature signature => s!"local file header has bad signature {hex32 signature}"
  | .corruptDeflate => "payload does not decode: corrupt deflate stream"
  | .corruptEnd => "payload does not decode: deflate decompression error"
  | .payloadTooLong limit =>
    s!"payload does not decode: payload longer than the declared {limit} bytes"
  | .objectTooSmall size => s!"{size} bytes is too small for a zip archive"
  | .entryOutside name offset objectSize =>
    s!"entry {Text.quoted name} at offset {offset} lies outside the archive ({objectSize} bytes)"
  | .payloadPastEnd path => s!"payload of {path} runs past the end of the archive"

/-- A valid feature that is not supported. -/
inductive Feature
  | multiDisk
  | method (id : Nat)
  deriving Repr, DecidableEq

def Feature.message : Feature → String
  | .multiDisk => "multi-disk archives"
  | .method id => s!"compression method {id}"

/-- Why an archive, or an entry of one, could not be read. -/
inductive ArchiveError
  | malformed (fault : Fault)
  | unsupported (feature : Feature)
  | lengthMismatch (expected actual : Nat)
  | checksumMismatch (expected actual : UInt32)
  /-- Bytes follow the end of a compressed payload, and nothing takes them. -/
  | unreadInput
  deriving Repr, DecidableEq

def ArchiveError.message : ArchiveError → String
  | .malformed fault => s!"malformed archive: {fault.message}"
  | .unsupported feature => s!"unsupported archive feature: {feature.message}"
  | .lengthMismatch expected actual =>
    s!"payload length mismatch: expected {expected} bytes, got {actual}"
  | .checksumMismatch expected actual =>
    s!"payload checksum mismatch: expected {hex32 expected.toNat}, got {hex32 actual.toNat}"
  | .unreadInput => "IO error: failed to write whole buffer"

end ArchiveMount

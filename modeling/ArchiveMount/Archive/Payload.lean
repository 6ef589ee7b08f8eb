/-
# `ArchiveMount.Archive.Payload` — decoding and checking an entry's payload

A `PayloadDecoder` takes the stored form of one entry in chunks and gives the decoded
bytes only if their number and their CRC-32 are those the directory declares.

Stored chunks are refused as soon as they would exceed the declared size.  Decoded
deflate output is counted later.  It goes through a window into a buffer, of 32 KiB each,
and the buffer is counted when both are full, when another chunk comes, and at the end.
What the last byte of a chunk yields past the end of the window waits with the next one.
-/
import ArchiveMount.Archive.Entry
import ArchiveMount.Archive.Error
import ArchiveMount.Checksum
import ArchiveMount.Deflate.Inflater

namespace ArchiveMount

/-- What a payload decoder asks of that which decodes deflate streams: to take a stream in byte
by byte, and to tell at any time what has been decoded and how the stream stands. -/
class Decompressor (σ : Type) where
  start : σ
  byte : σ → UInt8 → σ
  out : σ → Array UInt8
  /-- The next byte is one of a stored block. -/
  isCopying : σ → Bool
  /-- The stream is complete. -/
  isFinished : σ → Bool
  /-- The stream cannot be continued. -/
  isBroken : σ → Bool

@[default_instance]
instance : Decompressor Deflate.Inflater where
  start := {}
  byte := Deflate.Inflater.byte
  out := Deflate.Inflater.out
  isCopying := Deflate.Inflater.isCopying
  isFinished := Deflate.Inflater.isFinished
  isBroken := Deflate.Inflater.isBroken

/-- Where decoded bytes come from.  Of a decompressor's output the first `counted` bytes
are counted when the next chunk comes; what is beyond them waits. -/
inductive PayloadSource (σ : Type := Deflate.Inflater)
  | stored (out : Array UInt8)
  | deflated (decompressor : σ) (counted : Nat)

/-- A payload being decoded, with what the directory declares about it. -/
structure PayloadDecoder (σ : Type := Deflate.Inflater) where
  size : Nat
  crc : UInt32
  source : PayloadSource σ

namespace PayloadDecoder

open Decompressor

variable {σ : Type} [Decompressor σ]

/-- A decoder at the start of a payload. -/
def new (compression : Compression) (size : Nat) (crc : UInt32) :
    Except ArchiveError (PayloadDecoder σ) :=
  match compression with
  | .stored => .ok ⟨size, crc, .stored #[]⟩
  | .deflated => .ok ⟨size, crc, .deflated start 0⟩
  | .other id => .error (.unsupported (.method id))

/-- Refuse to count more than `size` decoded bytes. -/
def checkLimit (size counted : Nat) : Except ArchiveError Unit :=
  if size < counted then .error (.malformed (.payloadTooLong size)) else .ok ()

/-- How much output there is room for: the lengths at which window and buffer are full. -/
structure Room where
  window : Nat
  buffer : Nat

/-- The length of the window and of the buffer. -/
def Room.len : Nat := 32 * 1024

/-- The room at the start of a chunk.  The window ends at a multiple of its length. -/
def Room.after (counted : Nat) : Room :=
  ⟨counted - counted % Room.len + Room.len, counted + Room.len⟩

/-- Empty the full window, and count the buffer if that is full too. -/
def Room.empty (size : Nat) (r : Room) : Except ArchiveError Room :=
  if r.window < r.buffer then .ok { r with window := r.window + Room.len }
  else (checkLimit size r.window).map fun _ => ⟨r.window + Room.len, r.window + Room.len⟩

/-- Decode the bytes of a chunk, and say how much of all output is counted next.  A byte
of a stored block is taken in only when there is room for it, any other byte before. -/
def inflate (size : Nat) : Room → σ → Bytes → Except ArchiveError (σ × Nat)
  | r, s, [] => .ok (s, if isFinished s then min (out s).size r.buffer else (out s).size)
  | r, s, b :: rest =>
    if isFinished s then
      match checkLimit size (min (out s).size r.buffer) with
      | .error e => .error e
      | .ok _ => .error .unreadInput
    else
      match if isCopying s && (out s).size = r.window then r.empty size else .ok r with
      | .error e => .error e
      | .ok r =>
        let s := byte s b
        if (out s).size ≤ r.window then
          if isBroken s then .error (.malformed .corruptDeflate) else inflate size r s rest
        else if rest.isEmpty then .ok (s, r.window)
        else
          match r.empty size with
          | .error e => .error e
          | .ok next =>
            if isBroken s then .error (.malformed .corruptDeflate)
            else if isFinished s && r.buffer ≤ r.window then .error .unreadInput
            else inflate size next s rest

/-- Take in the next chunk.  An empty one changes nothing. -/
def write (d : PayloadDecoder σ) (chunk : Bytes) : Except ArchiveError (PayloadDecoder σ) :=
  if chunk.isEmpty then .ok d
  else
    match d.source with
    | .stored out =>
      if d.size < out.size + chunk.length then .error (.malformed (.payloadTooLong d.size))
      else .ok { d with source := .stored (out ++ chunk) }
    | .deflated s counted => do
      checkLimit d.size counted
      if isBroken s then .error (.malformed .corruptDeflate)
      else if isFinished s then .error .unreadInput
      else
        let (s, counted) ← inflate d.size (.after counted) s chunk
        return { d with source := .deflated s counted }

/-- Everything decoded so far. -/
def decoded (d : PayloadDecoder σ) : Bytes :=
  match d.source with
  | .stored out => out.toList
  | .deflated s _ => (out s).toList

/-- Refuse output that waited and turned out to be followed by bits without meaning. -/
def checkWaiting (d : PayloadDecoder σ) : Except ArchiveError Unit :=
  match d.source with
  | .stored _ => .ok ()
  | .deflated s counted => do
    checkLimit d.size counted
    if isBroken s then .error (.malformed .corruptEnd) else .ok ()

/-- The decoded bytes, if they are what the directory declares. -/
def finish (d : PayloadDecoder σ) : Except ArchiveError Bytes := do
  d.checkWaiting
  let out := d.decoded
  checkLimit d.size out.length
  if out.length ≠ d.size then .error (.lengthMismatch d.size out.length)
  else if crc32 out ≠ d.crc then .error (.checksumMismatch d.crc (crc32 out))
  else .ok out

/-- Take in chunks one after the other. -/
def writeAll (d : PayloadDecoder σ) (chunks : List Bytes) :
    Except ArchiveError (PayloadDecoder σ) :=
  chunks.foldlM write d

end PayloadDecoder

/-- Decode a payload that is all there. -/
def decodePayload (compression : Compression) (size : Nat) (crc : UInt32) (payload : Bytes) :
    Except ArchiveError Bytes := do
  let d ← PayloadDecoder.new compression size crc
  let d ← d.write payload
  d.finish

end ArchiveMount

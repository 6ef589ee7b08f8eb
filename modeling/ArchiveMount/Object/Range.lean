/-
# `ArchiveMount.Object.Range` — the part of an object that is asked for

A `ByteRange` takes one of four forms, and `resolve` says which bytes of an object of
a given size it means: a range that reaches past the end is cut there, and one that
lies past the end is empty.
-/
import ArchiveMount.Quantity

namespace ArchiveMount

/-- The part of an object that is asked for. -/
inductive ByteRange
  | whole
  /-- From an offset to the end. -/
  | onward (start : Nat)
  /-- Both ends included. -/
  | bounded (first last : Nat)
  /-- The last `len` bytes. -/
  | suffix (len : Nat)
  deriving Repr, DecidableEq

/-- Bounds that are the wrong way round. -/
structure InvertedBounds where
  first : Nat
  last : Nat
  deriving Repr, DecidableEq

/-- The bytes from `start` up to, but without, `stop`. -/
structure Span where
  start : Nat
  stop : Nat
  deriving Repr, DecidableEq

/-- Number of bytes in a span. -/
def Span.len (s : Span) : Nat := s.stop - s.start

namespace ByteRange

/-- Both ends included, and in order. -/
def between (first last : Nat) : Except InvertedBounds ByteRange :=
  if last < first then .error ⟨first, last⟩ else .ok (.bounded first last)

/-- A pair of offsets of which zero means that there is none: with neither it is the
whole object, with a start alone the rest from there, with an end alone a suffix. -/
def ofOffsets : (start stop : Nat) → Except InvertedBounds ByteRange
  | 0, 0 => .ok .whole
  | start, 0 => .ok (.onward start)
  | 0, stop => .ok (.suffix stop)
  | start, stop => between start stop

/-- The `len` bytes at `offset`; an empty stretch asks for one byte. -/
def ofSpan (offset len : Nat) : ByteRange :=
  .bounded offset (addSat offset (max len 1 - 1))

/-- The range expression of a request; there is none for the whole object. -/
def expression? : ByteRange → Option String
  | .whole => none
  | .onward start => some s!"bytes={start}-"
  | .bounded first last => some s!"bytes={first}-{last}"
  | .suffix len => some s!"bytes=-{len}"

/-- How a range is shown. -/
def render (r : ByteRange) : String := r.expression?.getD "bytes=*"

/-- The bytes that are meant in an object of `size` bytes. -/
def resolve (size : Nat) : ByteRange → Span
  | .whole => ⟨0, size⟩
  | .onward start => ⟨min start size, size⟩
  | .bounded first last => ⟨min first size, min (addSat last 1) size⟩
  | .suffix len => ⟨size - len, size⟩

end ByteRange

end ArchiveMount

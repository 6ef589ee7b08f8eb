/-
# `ArchiveMount.Deflate.Inflater` — decoding a deflate stream as it arrives

An `Inflater` takes a stream one byte at a time, lowest bit first, and is always
ready to say what has been decoded.  Its `Reading` says how the next bits are taken
together (a number of so many bits, or a walk down a code tree), its `Phase` what
the result will mean.  Each completed reading makes one transition (`accept`), so no
step looks ahead and a stream may be cut anywhere.

Three ways to stand still: `finished` after the last block, `broken` at the first bits
that cannot be part of any stream, and waiting for bits that never come, which is
no fault here.  A match may reach back before the first decoded byte: the 32 KiB
before it count as zeros.
-/
import ArchiveMount.Bytes
import ArchiveMount.Deflate.Tables

namespace ArchiveMount.Deflate

/-- How the next bits are taken together. -/
inductive Reading
  /-- `left` more bits of a number; the next one has weight `2 ^ shift`. -/
  | number (left shift value : Nat)
  /-- A code word, of which this subtree is left. -/
  | word (tree : CodeTree)
  /-- Bits without meaning. -/
  | skip

/-- What is being read. -/
inductive Phase
  | blockHeader
  /-- The rest of a byte, before a stored block. -/
  | padding
  | storedLen
  | stored (left : Nat)
  | tableSizes
  /-- The code-length code: `left` lengths to come, those read last first. -/
  | codeLengthCode (literals distances left : Nat) (read : List Nat)
  /-- The code lengths of both codes, those read last first. -/
  | codeLengths (literals total : Nat) (code : CodeTree) (read : List Nat)
  /-- How often to repeat `value`, at least `least` times. -/
  | repeatCount (literals total : Nat) (code : CodeTree) (read : List Nat) (value least : Nat)
  | symbol (literals distances : CodeTree)
  | lengthBits (literals distances : CodeTree) (least : Nat)
  | distance (literals distances : CodeTree) (len : Nat)
  | distanceBits (literals distances : CodeTree) (len least : Nat)
  | finished
  | broken

/-- A decoder in the middle of a stream. -/
structure Inflater where
  out : Array UInt8 := #[]
  /-- The block being read is the last one. -/
  lastBlock : Bool := false
  phase : Phase := .blockHeader
  reading : Reading := .number 3 0 0

namespace Inflater

/-- Go on to a phase that reads a number of `bits` bits. -/
def expectNumber (s : Inflater) (phase : Phase) (bits : Nat) : Inflater :=
  { s with phase, reading := .number bits 0 0 }

/-- Go on to a phase that reads a code word. -/
def expectWord (s : Inflater) (phase : Phase) (code : CodeTree) : Inflater :=
  { s with phase, reading := .word code }

/-- Stop at bits that mean nothing. -/
def fail (s : Inflater) : Inflater := { s with phase := .broken, reading := .skip }

/-- A block is complete. -/
def endBlock (s : Inflater) : Inflater :=
  if s.lastBlock then { s with phase := .finished, reading := .skip }
  else s.expectNumber .blockHeader 3

/-- Read the next symbol of a compressed block. -/
def nextSymbol (s : Inflater) (literals distances : CodeTree) : Inflater :=
  s.expectWord (.symbol literals distances) literals

/-- The output with `len` bytes copied from `distance` bytes back. -/
def copyBack (out : Array UInt8) (distance : Nat) : (len : Nat) → Array UInt8
  | 0 => out
  | len + 1 =>
    let b := if distance ≤ out.size then out[out.size - distance]?.getD 0 else 0
    copyBack (out.push b) distance len

/-- Copy a match and go on. -/
def copyMatch (s : Inflater) (literals distances : CodeTree) (len distance : Nat) : Inflater :=
  { s with out := copyBack s.out distance len }.nextSymbol literals distances

/-- The lengths of the code-length code, each symbol's at its own place. -/
def placeCodeLengths (given : List Nat) : List Nat :=
  (List.range 19).map fun symbol =>
    ((codeLengthOrder.zip given).find? (·.1 = symbol)).elim 0 (·.2)

/-- Go on after some code lengths have been read: with the next one, or with the
block's data once all are there. -/
def gotLengths (s : Inflater) (literals total : Nat) (code : CodeTree) (read : List Nat) :
    Inflater :=
  if read.length < total then s.expectWord (.codeLengths literals total code read) code
  else if total < read.length then s.fail
  else
    let lengths := read.reverse
    match CodeTree.ofLengths? false (lengths.take literals),
      CodeTree.ofLengths? false (lengths.drop literals) with
    | some l, some d => s.nextSymbol l d
    | _, _ => s.fail

/-- Take in a complete number or symbol. -/
def accept (s : Inflater) (v : Nat) : Inflater :=
  match s.phase with
  | .blockHeader =>
    let s := { s with lastBlock := v % 2 = 1 }
    match v / 2 with
    | 0 => { s with phase := .padding, reading := .skip }
    | 1 => s.nextSymbol fixedLiterals fixedDistances
    | 2 => s.expectNumber .tableSizes 14
    | _ => s.fail
  | .padding => s
  | .storedLen =>
    let len := v % 0x10000
    if v / 0x10000 ≠ 0xffff - len then s.fail
    else if len = 0 then s.endBlock
    else s.expectNumber (.stored len) 8
  | .stored left =>
    let s := { s with out := s.out.push (UInt8.ofNat v) }
    if left ≤ 1 then s.endBlock else s.expectNumber (.stored (left - 1)) 8
  | .tableSizes =>
    let literals := v % 32 + 257
    let distances := v / 32 % 32 + 1
    if 286 < literals ∨ 30 < distances then s.fail
    else s.expectNumber (.codeLengthCode literals distances (v / 1024 + 4) []) 3
  | .codeLengthCode literals distances left read =>
    if 1 < left then
      s.expectNumber (.codeLengthCode literals distances (left - 1) (v :: read)) 3
    else
      match CodeTree.ofLengths? true (placeCodeLengths (v :: read).reverse) with
      | some code => s.gotLengths literals (literals + distances) code []
      | none => s.fail
  | .codeLengths literals total code read =>
    match v, read with
    | 16, [] => s.fail
    | 16, last :: _ => s.expectNumber (.repeatCount literals total code read last 3) 2
    | 17, _ => s.expectNumber (.repeatCount literals total code read 0 3) 3
    | 18, _ => s.expectNumber (.repeatCount literals total code read 0 11) 7
    | _, _ => s.gotLengths literals total code (v :: read)
  | .repeatCount literals total code read value least =>
    s.gotLengths literals total code (List.replicate (least + v) value ++ read)
  | .symbol literals distances =>
    if v < 256 then
      { s with out := s.out.push (UInt8.ofNat v) }.nextSymbol literals distances
    else if v = 256 then s.endBlock
    else
      match lengthCodes[v - 257]? with
      | some (least, 0) => s.expectWord (.distance literals distances least) distances
      | some (least, bits) => s.expectNumber (.lengthBits literals distances least) bits
      | none => s.fail
  | .lengthBits literals distances least =>
    s.expectWord (.distance literals distances (least + v)) distances
  | .distance literals distances len =>
    match distanceCodes[v]? with
    | some (least, 0) => s.copyMatch literals distances len least
    | some (least, bits) => s.expectNumber (.distanceBits literals distances len least) bits
    | none => s.fail
  | .distanceBits literals distances len least =>
    s.copyMatch literals distances len (least + v)
  | .finished => s
  | .broken => s

/-- Take in one bit. -/
def bit (s : Inflater) (b : Bool) : Inflater :=
  match s.reading with
  | .skip => s
  | .number left shift value =>
    let value := if b then value + 1 <<< shift else value
    if left ≤ 1 then s.accept value
    else { s with reading := .number (left - 1) (shift + 1) value }
  | .word tree =>
    match tree.child b with
    | .leaf symbol => s.accept symbol
    | .empty => s.fail
    | .node zero one => { s with reading := .word (.node zero one) }

/-- Take in one byte, lowest bit first.  Padding ends with the byte it stands in. -/
def byte (s : Inflater) (b : UInt8) : Inflater :=
  let s := (List.range 8).foldl (fun s i => s.bit (b.toNat.testBit i)) s
  match s.phase with
  | .padding => s.expectNumber .storedLen 32
  | _ => s

/-- The next byte is one of a stored block. -/
def isCopying (s : Inflater) : Bool :=
  match s.phase with
  | .stored _ => true
  | _ => false

/-- The stream is complete. -/
def isFinished (s : Inflater) : Bool :=
  match s.phase with
  | .finished => true
  | _ => false

/-- The stream cannot be continued. -/
def isBroken (s : Inflater) : Bool :=
  match s.phase with
  | .broken => true
  | _ => false

end Inflater

end ArchiveMount.Deflate

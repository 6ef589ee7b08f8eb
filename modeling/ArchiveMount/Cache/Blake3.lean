/-
# `ArchiveMount.Cache.Blake3` — the digest that names cache records

BLAKE3 with 32 bytes of output.  The input is cut into chunks of 1024 bytes and these
into blocks of 64.  Within a chunk the blocks are compressed one after the other; the
chunks are the leaves of a binary tree in which every left half is as large a power of
two as leaves a chunk for the right.
-/
import ArchiveMount.Bytes

namespace ArchiveMount.Blake3

/-! ## Compression -/

/-- The initial chaining value. -/
def initial : List UInt32 :=
  [0x6A09E667, 0xBB67AE85, 0x3C6EF372, 0xA54FF53A, 0x510E527F, 0x9B05688C, 0x1F83D9AB, 0x5BE0CD19]

/-- Where each message word of the next round comes from. -/
def permutation : List Nat := [2, 6, 3, 10, 7, 0, 4, 13, 1, 11, 12, 5, 9, 14, 15, 8]

/-- The state of a compression: four rows of four words. -/
structure Rows where
  a : List UInt32
  b : List UInt32
  c : List UInt32
  d : List UInt32

def rotateRight (x n : UInt32) : UInt32 := (x >>> n) ||| (x <<< (32 - n))

/-- Four words of a state, one of each row. -/
structure Quad where
  a : UInt32
  b : UInt32
  c : UInt32
  d : UInt32

/-- Mix two message words into four words of the state. -/
def Quad.mix (q : Quad) (x y : UInt32) : Quad :=
  let a := q.a + q.b + x
  let d := rotateRight (q.d ^^^ a) 16
  let c := q.c + d
  let b := rotateRight (q.b ^^^ c) 12
  let a := a + b + y
  let d := rotateRight (d ^^^ a) 8
  let c := c + d
  let b := rotateRight (b ^^^ c) 7
  ⟨a, b, c, d⟩

/-- Mix each column with the next two message words. -/
def mixColumns (message : List UInt32) : (a b c d : List UInt32) → List Quad
  | a :: as, b :: bs, c :: cs, d :: ds =>
    Quad.mix ⟨a, b, c, d⟩ (message.headD 0) ((message.drop 1).headD 0)
      :: mixColumns (message.drop 2) as bs cs ds
  | _, _, _, _ => []

/-- Mix all columns of a state. -/
def Rows.mix (s : Rows) (message : List UInt32) : Rows :=
  let quads := mixColumns message s.a s.b s.c s.d
  ⟨quads.map (·.a), quads.map (·.b), quads.map (·.c), quads.map (·.d)⟩

/-- Turn the rows so that the diagonals are columns. -/
def Rows.diagonal (s : Rows) : Rows :=
  ⟨s.a, s.b.rotateLeft 1, s.c.rotateLeft 2, s.d.rotateLeft 3⟩

/-- Turn the rows back. -/
def Rows.straight (s : Rows) : Rows :=
  ⟨s.a, s.b.rotateLeft 3, s.c.rotateLeft 2, s.d.rotateLeft 1⟩

/-- One round: the columns take the first half of the message, the diagonals the
second. -/
def Rows.round (s : Rows) (message : List UInt32) : Rows :=
  ((s.mix message).diagonal.mix (message.drop 8)).straight

/-- `n` rounds, the message permuted after each. -/
def rounds : (n : Nat) → Rows → (message : List UInt32) → Rows
  | 0, s, _ => s
  | n + 1, s, message =>
    rounds n (s.round message) (permutation.map fun i => message.getD i 0)

/-- All that one compression takes in. -/
structure Input where
  chaining : List UInt32
  message : List UInt32
  counter : Nat
  len : Nat
  flags : UInt32

/-- The chaining value, or the digest, that a compression gives. -/
def Input.compress (i : Input) : List UInt32 :=
  let s : Rows := {
    a := i.chaining.take 4
    b := i.chaining.drop 4
    c := initial.take 4
    d := [UInt32.ofNat i.counter, UInt32.ofNat (i.counter / 0x100000000),
      UInt32.ofNat i.len, i.flags] }
  let s := rounds 7 s i.message
  List.zipWith (· ^^^ ·) (s.a ++ s.b) (s.c ++ s.d)

/-! ## Chunks -/

def chunkStart : UInt32 := 1
def chunkEnd : UInt32 := 2
def parent : UInt32 := 4
def root : UInt32 := 8

def blockLen : Nat := 64
def chunkLen : Nat := 1024

/-- The 16 words of a block, filled with zeros. -/
def blockWords (block : Bytes) : List UInt32 :=
  (List.range 16).map fun i => UInt32.ofNat (Bytes.field block (4 * i) 4)

/-- The last compression of a chunk, of which at most `blocks + 1` blocks are left. -/
def chunkInput (counter : Nat) : (blocks : Nat) → (chaining : List UInt32) → (flags : UInt32) →
    Bytes → Input
  | 0, chaining, flags, b => ⟨chaining, blockWords b, counter, b.length, flags ||| chunkEnd⟩
  | blocks + 1, chaining, flags, b =>
    if b.length ≤ blockLen then ⟨chaining, blockWords b, counter, b.length, flags ||| chunkEnd⟩
    else
      let i : Input := ⟨chaining, blockWords (b.take blockLen), counter, blockLen, flags⟩
      chunkInput counter blocks i.compress 0 (b.drop blockLen)

/-! ## The tree -/

/-- How many bytes of more than one chunk go to the left: a power of two of chunks, as
many as leave something for the right. -/
def leftLen (len : Nat) : Nat := 1 <<< ((len - 1) / chunkLen).log2 * chunkLen

/-- The last compression over a run of chunks, the first of which is number
`counter`; `fuel` bounds the height of the tree. -/
def treeInput : (fuel : Nat) → (counter : Nat) → Bytes → Input
  | 0, counter, b => chunkInput counter 15 initial chunkStart b
  | fuel + 1, counter, b =>
    let len := b.length
    if len ≤ chunkLen then chunkInput counter 15 initial chunkStart b
    else
      let left := leftLen len
      let l := treeInput fuel counter (b.take left)
      let r := treeInput fuel (counter + left / chunkLen) (b.drop left)
      ⟨initial, l.compress ++ r.compress, 0, blockLen, parent⟩

/-- The digest of a byte string. -/
def hash (b : Bytes) : Bytes :=
  let i := treeInput b.length 0 b
  let last : Input := { i with flags := i.flags ||| root }
  last.compress.flatMap fun w => Bytes.ofNat 4 w.toNat

end ArchiveMount.Blake3

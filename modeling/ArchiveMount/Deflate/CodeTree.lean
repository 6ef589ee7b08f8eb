/-
# `ArchiveMount.Deflate.CodeTree` — prefix codes as trees

A deflate block describes a code by the length of each symbol's code word.  The
words themselves follow: shorter ones come first, equal lengths go by symbol, and
each takes the leftmost free place.  `CodeTree.ofLengths?` builds the tree in just
this way, left to right, and refuses lengths that do not fill a tree exactly; unless a
complete code is asked for, one without words or with a single word of one bit will do.
-/

namespace ArchiveMount.Deflate

/-- A binary code: a bit chooses a side, a leaf ends a code word. -/
inductive CodeTree
  | empty
  | leaf (symbol : Nat)
  | node (zero one : CodeTree)
  deriving Repr, DecidableEq

namespace CodeTree

/-- The longest code word. -/
def maxLen : Nat := 15

/-- Symbols that have a code word, as pairs of length and symbol, in the order in
which words are given out. -/
def canonicalOrder (lengths : List Nat) : List (Nat × Nat) :=
  (lengths.zipIdx.filter (·.1 ≠ 0)).mergeSort (fun a b => a.1 ≤ b.1)

/-- Grow a subtree whose root is `depth` bits deep, with `fuel` levels to go: a
symbol whose word has this length is a leaf, a longer one lies below.  Returns the
symbols not placed. -/
def grow : (fuel depth : Nat) → List (Nat × Nat) → CodeTree × List (Nat × Nat)
  | _, _, [] => (.empty, [])
  | 0, _, rest => (.empty, rest)
  | fuel + 1, depth, (len, symbol) :: rest =>
    if len ≤ depth then (.leaf symbol, rest)
    else
      let (zero, rest) := grow fuel (depth + 1) ((len, symbol) :: rest)
      let (one, rest) := grow fuel (depth + 1) rest
      (.node zero one, rest)

/-- The share of the code space that these lengths take, in units of the longest
word. -/
def spaceTaken (lengths : List Nat) : Nat :=
  (lengths.filter (· ≠ 0)).foldr (fun len total => 1 <<< (maxLen - len) + total) 0

/-- The tree of a code with these lengths, zero for a symbol without a word. -/
def ofLengths? (mustBeComplete : Bool) (lengths : List Nat) : Option CodeTree :=
  let used := lengths.filter (· ≠ 0)
  if spaceTaken lengths = 1 <<< maxLen ∨ (mustBeComplete = false ∧ (used = [] ∨ used = [1])) then
    some (grow (maxLen + 1) 0 (canonicalOrder lengths)).1
  else none

/-- The side of a tree that a bit chooses. -/
def child (t : CodeTree) (b : Bool) : CodeTree :=
  match t with
  | .node zero one => if b then one else zero
  | _ => .empty

end CodeTree

end ArchiveMount.Deflate

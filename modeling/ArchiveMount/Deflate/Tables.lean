/-
# `ArchiveMount.Deflate.Tables` — the constants of the deflate format

What match lengths and distances stand for, the order in which a block gives the
code that its code lengths are written in, and the two fixed codes.
-/
import ArchiveMount.Deflate.CodeTree

namespace ArchiveMount.Deflate

/-- For the symbols from 257 on: the shortest match length, and how many further
bits add to it. -/
def lengthCodes : Array (Nat × Nat) :=
  #[(3, 0), (4, 0), (5, 0), (6, 0), (7, 0), (8, 0), (9, 0), (10, 0), (11, 1), (13, 1),
    (15, 1), (17, 1), (19, 2), (23, 2), (27, 2), (31, 2), (35, 3), (43, 3), (51, 3),
    (59, 3), (67, 4), (83, 4), (99, 4), (115, 4), (131, 5), (163, 5), (195, 5), (227, 5),
    (258, 0)]

/-- For each distance symbol: the shortest distance, and how many further bits add
to it. -/
def distanceCodes : Array (Nat × Nat) :=
  #[(1, 0), (2, 0), (3, 0), (4, 0), (5, 1), (7, 1), (9, 2), (13, 2), (17, 3), (25, 3),
    (33, 4), (49, 4), (65, 5), (97, 5), (129, 6), (193, 6), (257, 7), (385, 7), (513, 8),
    (769, 8), (1025, 9), (1537, 9), (2049, 10), (3073, 10), (4097, 11), (6145, 11),
    (8193, 12), (12289, 12), (16385, 13), (24577, 13)]

/-- The symbols of the code-length code, in the order their lengths are given. -/
def codeLengthOrder : List Nat :=
  [16, 17, 18, 0, 8, 7, 9, 6, 10, 5, 11, 4, 12, 3, 13, 2, 14, 1, 15]

/-- The fixed code for literals and match lengths. -/
def fixedLiterals : CodeTree :=
  (CodeTree.ofLengths? true (List.replicate 144 8 ++ List.replicate 112 9
    ++ List.replicate 24 7 ++ List.replicate 8 8)).getD .empty

/-- The fixed code for distances. -/
def fixedDistances : CodeTree :=
  (CodeTree.ofLengths? true (List.replicate 32 5)).getD .empty

end ArchiveMount.Deflate

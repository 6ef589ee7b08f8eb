/-
# `ArchiveMount.Domain.Direction` — names written from right to left

Where a name has a letter that is written from right to left, each of its labels has to
keep to one direction, so that it reads in one way only: it begins with a letter,
has no letters of the other direction, and ends with a letter or digit; to the right,
both kinds of digits cannot stand together, and to the left there are no Arabic ones.
Marks at the end do not count.
-/
import ArchiveMount.Domain.Mark

namespace ArchiveMount.Domain

/-- How a character takes part in the direction of a text. -/
inductive Direction
  /-- A letter of a script written from left to right. -/
  | toRight
  /-- A letter of a script written from right to left. -/
  | toLeft
  | digit
  | arabicDigit
  | mark
  | neutral
  deriving Repr, DecidableEq

namespace Direction

/-! ## Tables -/

def toLeftLetters : Text.CodePoints := .ofTable "
  5be 5c0 5c3 5c6 5d0-5f4 608 60b 60d 61b-64a 66d-66f 671-6d5 6e5-6e6 6ee-6ef 6fa-710 712-72f
  74d-7a5 7b1-7ea 7f4-7f5 7fa 7fe-815 81a 824 828 830-858 85e-88f 8a0-8c9 fbb2-fbc2 fe73
  10800-1091b 10920-10a00 10a10-10a35 10a40-10ae4 10aeb-10b35 10b40-10d23 10d4a-10d4f 10d6f-10d8f
  10e80-10ea9 10ead-10ec7 10f00-10f45 10f51-10f81 10f86-10ff6 1e800-1e8cf 1e922-1e943 1e94b-1ed3d"

def digits : Text.CodePoints := .ofTable "
  6f0-6f9 102e1-102fb"

def arabicDigits : Text.CodePoints := .ofTable "
  660-669 66b-66c 10d30-10d49 10e60-10e7e"

def neutrals : Text.CodePoints := .ofTable "
  a1-d7 f7 2b9-2ba 2c2-2cf 2d2-2ed 2ef-2ff 375 3f6 58a-58f 606-607 609-60a 60c 60e-60f 66a 6de 6e9
  7f6-7f9 9f2-9f3 9fb af1 bf3-bfa c78-c7e e3f f3a-f3d 1390-1399 1400 169b-169c 17db 17f0-180a
  1940-1945 19de-19ff 200c-20c1 2104-214d 218a-2335 237b-2394 2396-26ab 26ad-27ff 2900-2bff
  2ce5-2cea 2cf9-2cff 2e00-3004 3008-3020 3030 3037 303d-303f 30a0 30fb 31c0-31e5 4dc0-4dff
  a490-a4c6 a60d-a60f a673 a67e-a67f a700-a721 a788 a828-a82b a838-a839 a874-a877 ab6a-ab6b
  fbc3-fdff fe45-fe46 10101 10140-1018c 10190-101a0 1091f 10b39-10b3f 10d6e 10ed0-10ed8
  11052-11065 11660-1166c 11fd5-11ff1 16fe2 1cc00-1cef0 1d1e9-1d241 1d245 1d300-1d356 1e2ff
  1eef0-1f12f 1f16d-1f16f 1f1ad 1f260-1fbfa"

/-! ## The rule -/

/-- The direction of a character. -/
def ofChar (c : Char) : Direction :=
  if c.toNat < 0x80 then if c.isAlpha then .toRight else if c.isDigit then .digit else .neutral
  else if toLeftLetters.contains c then .toLeft
  else if digits.contains c then .digit
  else if arabicDigits.contains c then .arabicDigit
  else if Mark.nonspacing.contains c then .mark
  else if neutrals.contains c then .neutral
  else .toRight

/-- Whether a label has something that is written from right to left. -/
def hasToLeft (label : List Char) : Bool :=
  label.any fun c => ofChar c = .toLeft || ofChar c = .arabicDigit

/-- Whether a label keeps to one direction. -/
def isUniform (label : List Char) : Bool :=
  let directions := label.map ofChar
  let last := directions.reverse.find? (· ≠ .mark)
  match directions with
  | [] => true
  | .toRight :: _ =>
    directions.all (fun d => d ≠ .toLeft && d ≠ .arabicDigit)
      && (last = some .toRight || last = some .digit)
  | .toLeft :: _ =>
    directions.all (· ≠ .toRight)
      && (last = some .toLeft || last = some .digit || last = some .arabicDigit)
      && !(directions.contains .digit && directions.contains .arabicDigit)
  | _ => false

end Direction

end ArchiveMount.Domain

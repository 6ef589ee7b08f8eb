/-
# `ArchiveMount.Domain.Punycode` — names in ASCII letters

A name is written as its ASCII characters, a hyphen, and a series of numbers that say
which other characters are put in, in ascending order, and where.  Numbers have digits
`a` to `z` and `0` to `9`, the least significant one first; the last digit of a number
is below a threshold that adapts to the numbers before it.  A reader refuses numbers and
weights that do not fit into 32 bits.
-/

namespace ArchiveMount.Domain.Punycode

/-! ## Numbers -/

/-- The least value, at a place, of a digit that more digits follow. -/
def threshold (place bias : Nat) : Nat := min 26 (max 1 (place - bias))

/-- How often a number can be divided by 35 before it is below 456, and what is left. -/
def shrink (n places : Nat) : Nat × Nat :=
  if 455 < n then shrink (n / 35) (places + 36) else (n, places)
  termination_by n
  decreasing_by omega

/-- The bias after a number; `count` characters stand there then. -/
def adapt (n count : Nat) (isFirst : Bool) : Nat :=
  let n := if isFirst then n / 700 else n / 2
  let (n, places) := shrink (n + n / count) 0
  places + 36 * n / (n + 38)

def digitChar (d : Nat) : Char := Char.ofNat (if d < 26 then 97 + d else 22 + d)

/-- The value of a digit, in either case. -/
def digit? (c : Char) : Option Nat :=
  if c.isDigit then some (c.toNat - 22)
  else if c.isAlpha then some (c.toLower.toNat - 97)
  else none

/-- The digits of a number; `place` is that of the first one. -/
def writeNumber (bias place n : Nat) : List Char :=
  let t := threshold place bias
  if h : n < t then [digitChar n]
  else
    have : (n - t) / (36 - t) < n := by
      have : 1 ≤ t := by simp only [t, threshold]; omega
      calc (n - t) / (36 - t) ≤ n - t := Nat.div_le_self ..
        _ < n := by omega
    digitChar (t + (n - t) % (36 - t)) :: writeNumber bias (place + 36) ((n - t) / (36 - t))
  termination_by n

/-- The first number that is too large to be read. -/
def limit : Nat := 0x100000000

/-- Read a number; `weight` is that of the first digit. -/
def readNumber (bias : Nat) : (place weight : Nat) → List Char → Option (Nat × List Char)
  | _, _, [] => none
  | place, weight, c :: rest => do
    let d ← digit? c
    let t := threshold place bias
    if d < t then return (d * weight, rest)
    else if limit ≤ weight * (36 - t) then none
    else
      let (n, rest) ← readNumber bias (place + 36) (weight * (36 - t)) rest
      return (d * weight + n, rest)

/-! ## Writing -/

/-- A name half written. -/
structure Writer where
  /-- Characters that are accounted for. -/
  count : Nat
  skipped : Nat := 0
  bias : Nat := 72
  digits : List Char := []

/-- Account for every place where `point` stands; characters below it are there
already. -/
def Writer.put (basic point : Nat) (w : Writer) (s : List Char) : Writer :=
  s.foldl (fun w c =>
    if c.toNat < point then { w with skipped := w.skipped + 1 }
    else if c.toNat = point then {
      count := w.count + 1
      skipped := 0
      bias := adapt w.skipped (w.count + 1) (w.count = basic)
      digits := w.digits ++ writeNumber w.bias 36 w.skipped }
    else w) w

/-- Write a name. -/
def encode (s : List Char) : List Char :=
  let basic := s.filter (·.toNat < 0x80)
  let points := ((s.map Char.toNat).filter (0x80 ≤ ·)).eraseDups.mergeSort
  let (w, _) := points.foldl (fun (w, next) point =>
      let w := { w with skipped := w.skipped + (point - next) * (w.count + 1) }
      let w := Writer.put basic.length point w s
      ({ w with skipped := w.skipped + 1 }, point + 1))
    (({ count := basic.length } : Writer), 0x80)
  basic ++ (if basic.isEmpty then [] else ['-']) ++ w.digits

/-! ## Reading -/

/-- Put in the characters that are left; `fuel` is the number of digits. -/
def insertAll : (fuel : Nat) → (out : List Char) → (point place bias : Nat) → List Char →
    Option (List Char)
  | _, out, _, _, _, [] => some out
  | 0, _, _, _, _, _ => none
  | fuel + 1, out, point, place, bias, digits => do
    let (n, rest) ← readNumber bias 36 1 digits
    let count := out.length + 1
    let point := point + (place + n) / count
    if place + n < limit ∧ point.isValidChar then
      let at_ := (place + n) % count
      insertAll fuel (out.take at_ ++ Char.ofNat point :: out.drop at_) point (at_ + 1)
        (adapt n count (place = 0)) rest
    else none

/-- Read a name.  The last hyphen ends its ASCII characters, of which there is one at
least; where there is none, no hyphen stands. -/
def decode? (s : List Char) : Option (List Char) :=
  let digits := (s.reverse.takeWhile (· ≠ '-')).reverse
  let basic := s.take (s.length - digits.length - 1)
  if basic.any (0x80 ≤ ·.toNat) || (basic.isEmpty && s.contains '-') then none
  else insertAll digits.length basic 0x80 0 72 digits

end ArchiveMount.Domain.Punycode

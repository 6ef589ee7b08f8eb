/-
# `ArchiveMount.Quantity` — 64-bit quantities

Sizes, offsets and counts are natural numbers that fit 64 bits.  A sum that would not
fit stops at the greatest one.
-/

namespace ArchiveMount

/-- The greatest 64-bit quantity. -/
def maxWord : Nat := 0xffffffffffffffff

/-- Addition that stops at the greatest 64-bit quantity. -/
def addSat (a b : Nat) : Nat := min (a + b) maxWord

/-- A 64-bit quantity in decimal; a plus sign may stand before it. -/
def decimalWord? (s : List Char) : Option Nat :=
  let digits := if s.head? = some '+' then s.drop 1 else s
  if digits.isEmpty || !digits.all Char.isDigit then none
  else
    let n := digits.foldl (fun n c => n * 10 + (c.toNat - 48)) 0
    if n ≤ maxWord then some n else none

theorem addSat_eq_add {a b : Nat} (h : a + b ≤ maxWord) : addSat a b = a + b := by
  simp [addSat, h]

theorem addSat_le (a b : Nat) : addSat a b ≤ maxWord := Nat.min_le_right _ _

end ArchiveMount

/-
# `ArchiveMount.Proofs.Checksum` — a checksum tells bytes apart that differ in one place

A shift of the register can be undone: its top bit says whether the polynomial was added, which
the bit that was shifted out decided (`Crc32.bit_injective`).  So the register before a byte can
be told from the register behind it, and so can the byte.  Two byte strings that differ in one
place have other registers behind that place, and whatever follows keeps them apart
(`crc32_append_cons_inj`).
-/
import ArchiveMount.Checksum
import Mathlib.Logic.Function.Basic

namespace ArchiveMount

namespace Crc32

/-! ## One shift -/

/-- The polynomial, bit by bit. -/
def polynomial : BitVec 32 := 0xEDB88320#32

theorem and_one_eq_one_iff (s : UInt32) : s &&& 1 = 1 ↔ s.toBitVec.getLsbD 0 = true := by
  rw [← UInt32.toNat_inj, UInt32.toNat_and]
  show s.toNat &&& 1 = 1 ↔ s.toNat.testBit 0 = true
  rw [Nat.and_one_is_mod, Nat.testBit_zero, decide_eq_true_iff]

/-- A bit of the register is the one above it, and the polynomial's if the lowest one was set. -/
theorem getLsbD_bit (s : UInt32) (i : Nat) :
    (bit s).toBitVec.getLsbD i =
      (s.toBitVec.getLsbD (i + 1) ^^ (s.toBitVec.getLsbD 0 && polynomial.getLsbD i)) := by
  rw [bit]
  simp only [and_one_eq_one_iff]
  cases h : s.toBitVec.getLsbD 0 with
  | true =>
      rw [if_pos rfl, UInt32.toBitVec_xor, BitVec.getLsbD_xor, UInt32.toBitVec_shiftRight]
      simp [polynomial, Nat.add_comm]
  | false =>
      rw [if_neg (by simp), UInt32.toBitVec_shiftRight]
      simp [Nat.add_comm]

/-- The lowest bit goes to the top. -/
theorem getLsbD_bit_top (s : UInt32) : (bit s).toBitVec.getLsbD 31 = s.toBitVec.getLsbD 0 := by
  have htop : s.toBitVec.getLsbD 32 = false := BitVec.getLsbD_of_ge _ _ (Nat.le_refl 32)
  have hpoly : polynomial.getLsbD 31 = true := by decide
  rw [getLsbD_bit, htop, hpoly, Bool.and_true, Bool.false_xor]

/-- The register can be told from what it is shifted to. -/
theorem bit_injective : Function.Injective bit := by
  intro s t h
  have hlow : s.toBitVec.getLsbD 0 = t.toBitVec.getLsbD 0 := by
    rw [← getLsbD_bit_top, ← getLsbD_bit_top, h]
  apply UInt32.toBitVec_inj.1
  apply BitVec.eq_of_getLsbD_eq
  intro i _
  cases i with
  | zero => exact hlow
  | succ i =>
      have hi := getLsbD_bit s i
      rw [h, getLsbD_bit t i, hlow] at hi
      exact Bool.xor_left_inj.1 hi.symm

/-! ## Bytes -/

/-- The eight shifts of a byte. -/
theorem byte_inj {s t : UInt32} {x y : UInt8} :
    byte s x = byte t y ↔ s ^^^ x.toUInt32 = t ^^^ y.toUInt32 := by
  simp only [byte, bit_injective.eq_iff]

/-- Behind a byte the register tells what it was before. -/
theorem byte_left_inj {s t : UInt32} (x : UInt8) : byte s x = byte t x ↔ s = t := by
  rw [byte_inj, UInt32.xor_left_inj]

/-- Behind a byte the register tells the byte. -/
theorem byte_right_inj (s : UInt32) {x y : UInt8} : byte s x = byte s y ↔ x = y := by
  rw [byte_inj, UInt32.xor_right_inj, UInt8.toUInt32_inj]

/-- Registers that differ before some bytes differ behind them. -/
theorem update_left_inj {s t : UInt32} (b : Bytes) : update s b = update t b ↔ s = t := by
  induction b generalizing s t with
  | nil => rfl
  | cons x b ih =>
      show update (byte s x) b = update (byte t x) b ↔ s = t
      rw [ih, byte_left_inj]

end Crc32

open Crc32 in
/-- Byte strings that are alike but for one place have the same checksum only if they are alike
there too. -/
theorem crc32_append_cons_inj (a b : Bytes) {x y : UInt8} :
    crc32 (a ++ x :: b) = crc32 (a ++ y :: b) ↔ x = y := by
  have hcons : ∀ z, update init (a ++ z :: b) = update (byte (update init a) z) b :=
    fun z => update_append init a (z :: b)
  rw [crc32, crc32, finish, finish, UInt32.xor_left_inj, hcons, hcons, update_left_inj,
    byte_right_inj]

/-- Another byte in one place gives another checksum. -/
theorem crc32_set_ne {b : Bytes} {pos : Nat} (hpos : pos < b.length) {x : UInt8} (hx : x ≠ b[pos]) :
    crc32 (b.set pos x) ≠ crc32 b := by
  have hsplit : b.take pos ++ b[pos] :: b.drop (pos + 1) = b := by
    rw [List.getElem_cons_drop, List.take_append_drop]
  rw [List.set_eq_take_append_cons_drop, if_pos hpos]
  intro h
  rw [← congrArg crc32 hsplit] at h
  exact hx ((crc32_append_cons_inj _ _).1 h)

end ArchiveMount

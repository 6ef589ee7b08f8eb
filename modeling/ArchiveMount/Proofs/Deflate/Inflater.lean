/-
# `ArchiveMount.Proofs.Deflate.Inflater` — what a byte does to an inflater

Output is never taken back (`size_out_le_byte`), and a stream that has come to bits without
meaning stays broken whatever follows (`isBroken_byte`).  Both hold of each transition, so
of each bit and of each byte.
-/
import ArchiveMount.Deflate.Inflater
import Mathlib.Tactic.SplitIfs

namespace ArchiveMount.Deflate.Inflater

variable {s : Inflater}

/-! ## Output -/

theorem size_le_copyBack (out : Array UInt8) (distance len : Nat) :
    out.size ≤ (copyBack out distance len).size := by
  induction len generalizing out with
  | zero => exact Nat.le_refl _
  | succ len ih =>
      refine Nat.le_trans ?_ (ih _)
      rw [Array.size_push]
      exact Nat.le_succ _

theorem size_le_of_out_eq {s s' : Inflater} (h : s'.out = s.out) : s.out.size ≤ s'.out.size :=
  Nat.le_of_eq (congrArg Array.size h.symm)

theorem out_endBlock (s : Inflater) : s.endBlock.out = s.out := by
  simp only [endBlock]
  split_ifs <;> rfl

theorem out_gotLengths (s : Inflater) (literals total : Nat) (code : CodeTree) (read : List Nat) :
    (s.gotLengths literals total code read).out = s.out := by
  simp only [gotLengths]
  split_ifs
  · rfl
  · rfl
  · split <;> rfl

theorem size_out_le_copyMatch (s : Inflater) (literals distances : CodeTree)
    (len distance : Nat) :
    s.out.size ≤ (s.copyMatch literals distances len distance).out.size :=
  size_le_copyBack s.out distance len

theorem size_le_push (out : Array UInt8) (b : UInt8) : out.size ≤ (out.push b).size := by
  rw [Array.size_push]
  exact Nat.le_succ _

/-- A transition takes no output back. -/
theorem size_out_le_accept (s : Inflater) (v : Nat) : s.out.size ≤ (s.accept v).out.size := by
  -- output grows by a literal, a byte of a stored block or a match; all else leaves it alone
  cases hp : s.phase with
  | blockHeader =>
      simp only [accept, hp]
      split <;> exact Nat.le_refl _
  | padding | finished | broken =>
      simp only [accept, hp]
      exact Nat.le_refl _
  | storedLen =>
      simp only [accept, hp]
      split_ifs
      · exact Nat.le_refl _
      · exact size_le_of_out_eq (out_endBlock s)
      · exact Nat.le_refl _
  | stored left =>
      simp only [accept, hp]
      split_ifs
      · rw [out_endBlock]
        exact size_le_push _ _
      · exact size_le_push _ _
  | tableSizes =>
      simp only [accept, hp]
      split_ifs <;> exact Nat.le_refl _
  | codeLengthCode literals distances left read =>
      simp only [accept, hp]
      split_ifs
      · exact Nat.le_refl _
      · split
        · exact size_le_of_out_eq (out_gotLengths _ _ _ _ _)
        · exact Nat.le_refl _
  | codeLengths literals total code read =>
      simp only [accept, hp]
      split
      · exact Nat.le_refl _
      · exact Nat.le_refl _
      · exact Nat.le_refl _
      · exact Nat.le_refl _
      · exact size_le_of_out_eq (out_gotLengths _ _ _ _ _)
  | repeatCount literals total code read value least =>
      simp only [accept, hp]
      exact size_le_of_out_eq (out_gotLengths _ _ _ _ _)
  | symbol literals distances =>
      simp only [accept, hp]
      split_ifs
      · exact size_le_push _ _
      · exact size_le_of_out_eq (out_endBlock s)
      · split <;> exact Nat.le_refl _
  | lengthBits literals distances least =>
      simp only [accept, hp]
      exact Nat.le_refl _
  | distance literals distances len =>
      simp only [accept, hp]
      split
      · exact size_out_le_copyMatch _ _ _ _ _
      · exact Nat.le_refl _
      · exact Nat.le_refl _
  | distanceBits literals distances len least =>
      simp only [accept, hp]
      exact size_out_le_copyMatch _ _ _ _ _

theorem size_out_le_bit (s : Inflater) (b : Bool) : s.out.size ≤ (s.bit b).out.size := by
  simp only [bit]
  split
  · exact Nat.le_refl _
  · split_ifs
    all_goals first | exact size_out_le_accept s _ | exact Nat.le_refl _
  · split
    · exact size_out_le_accept s _
    · exact Nat.le_refl _
    · exact Nat.le_refl _

/-- Bits are taken in one after the other. -/
def bits (s : Inflater) (bs : List Bool) : Inflater := bs.foldl bit s

/-- Padding ends with the byte. -/
def endByte (s : Inflater) : Inflater :=
  match s.phase with
  | .padding => s.expectNumber .storedLen 32
  | _ => s

theorem byte_eq (s : Inflater) (b : UInt8) :
    s.byte b = (s.bits ((List.range 8).map fun i => b.toNat.testBit i)).endByte := by
  rw [bits, List.foldl_map]
  rfl

theorem out_endByte (s : Inflater) : s.endByte.out = s.out := by
  simp only [endByte]
  split <;> rfl

theorem size_out_le_bits (s : Inflater) (bs : List Bool) :
    s.out.size ≤ (s.bits bs).out.size := by
  simp only [bits]
  induction bs generalizing s with
  | nil => exact Nat.le_refl _
  | cons b bs ih => exact Nat.le_trans (size_out_le_bit s b) (ih _)

theorem size_out_le_byte (s : Inflater) (b : UInt8) : s.out.size ≤ (s.byte b).out.size := by
  rw [byte_eq, out_endByte]
  exact size_out_le_bits s _

/-! ## Broken streams -/

theorem isBroken_iff : s.isBroken = true ↔ s.phase = .broken := by
  simp only [isBroken]
  cases s.phase <;> simp

theorem phase_bit (h : s.phase = .broken) (b : Bool) : (s.bit b).phase = .broken := by
  have haccept : ∀ v, (s.accept v).phase = .broken := by
    intro v
    simp only [accept, h]
  simp only [bit]
  split
  · exact h
  · split_ifs
    all_goals first | exact haccept _ | exact h
  · split
    · exact haccept _
    · rfl
    · exact h

theorem phase_bits (h : s.phase = .broken) (bs : List Bool) : (s.bits bs).phase = .broken := by
  simp only [bits]
  induction bs generalizing s with
  | nil => exact h
  | cons b bs ih => exact ih (phase_bit h b)

theorem isBroken_byte (h : s.isBroken = true) (b : UInt8) : (s.byte b).isBroken = true := by
  have hphase := phase_bits (isBroken_iff.1 h) ((List.range 8).map fun i => b.toNat.testBit i)
  rw [isBroken_iff, byte_eq]
  simp only [endByte, hphase]

end ArchiveMount.Deflate.Inflater

/-
# `ArchiveMount.Proofs.Text.Lossy` — the lenient reader loses no well-formed text

`ofUtf8Lossy` puts replacement characters in ill-formed places only, so that it reads the
UTF-8 form of a text as that text.  The proof follows the reader through the one to four
bytes of a character; `read_last` and `read_next` are its steps on continuation bytes.
-/
import ArchiveMount.Text.Utf8
import Mathlib.Tactic.IntervalCases

namespace ArchiveMount.Text

theorem utf8_eq_flatMap (s : String) : utf8 s = s.toList.flatMap String.utf8EncodeChar := by
  simp only [utf8]
  rw [← String.utf8Encode_toList]
  simp [List.utf8Encode]

theorem char_eq_ofNat {c : Char} {n : Nat} (h : n = c.toNat) : Char.ofNat n = c := by
  rw [h, Char.ofNat_toNat]

/-! ## Lead bytes -/

theorem of_one {n : Nat} (h : n < 0x80) : Lead.of (UInt8.ofNat n) = .whole (Char.ofNat n) := by
  have hn : (UInt8.ofNat n).toNat = n := by simp; omega
  simp [Lead.of, hn, h]

theorem of_two {n : Nat} (hl : 2 ≤ n) (h : n < 0x20) :
    Lead.of (UInt8.ofNat (n + 0xC0)) = .begins ⟨1, 0x80, 0xBF, n⟩ := by
  interval_cases n <;> rfl

theorem of_three {n : Nat} (h : n < 0x10) :
    Lead.of (UInt8.ofNat (n + 0xE0)) =
      .begins ⟨2, if n = 0 then 0xA0 else 0x80, if n = 0xD then 0x9F else 0xBF, n⟩ := by
  interval_cases n <;> rfl

theorem of_four {n : Nat} (h : n < 5) :
    Lead.of (UInt8.ofNat (n + 0xF0)) =
      .begins ⟨3, if n = 0 then 0x90 else 0x80, if n = 4 then 0x8F else 0xBF, n⟩ := by
  interval_cases n <;> rfl

namespace LossyReader

variable {done : List Char} {low high bits n : Nat}

/-! ## Continuation bytes -/

/-- The last byte of a character completes it. -/
theorem read_last (hl : low ≤ n + 0x80) (hh : n + 0x80 ≤ high) (hn : n < 0x40) :
    read ⟨done, some ⟨1, low, high, bits⟩⟩ (UInt8.ofNat (n + 0x80)) =
      ⟨Char.ofNat (bits * 64 + n) :: done, none⟩ := by
  have hb : (UInt8.ofNat (n + 0x80)).toNat = n + 0x80 := by simp; omega
  have hm : (n + 0x80) % 64 = n := by omega
  simp only [read, hb, hm]
  rw [if_pos ⟨hl, hh⟩, if_pos (Nat.le_refl 1)]

/-- Any other one adds its bits. -/
theorem read_next {missing : Nat} (hl : low ≤ n + 0x80) (hh : n + 0x80 ≤ high) (hn : n < 0x40) :
    read ⟨done, some ⟨missing + 2, low, high, bits⟩⟩ (UInt8.ofNat (n + 0x80)) =
      ⟨done, some ⟨missing + 1, 0x80, 0xBF, bits * 64 + n⟩⟩ := by
  have hb : (UInt8.ofNat (n + 0x80)).toNat = n + 0x80 := by simp; omega
  have hm : (n + 0x80) % 64 = n := by omega
  simp only [read, hb, hm]
  rw [if_pos ⟨hl, hh⟩, if_neg (by omega)]
  rfl

theorem read_begins {b : UInt8} {p : Partial} (h : Lead.of b = .begins p) :
    read ⟨done, none⟩ b = ⟨done, some p⟩ := by
  simp [read, start, h]

/-! ## Characters and texts -/

/-- The bytes of a character are read as that character. -/
theorem foldl_read_utf8EncodeChar (c : Char) (done : List Char) :
    (String.utf8EncodeChar c).foldl read ⟨done, none⟩ = ⟨c :: done, none⟩ := by
  have hv : c.toNat < 0xd800 ∨ 0xdfff < c.toNat ∧ c.toNat < 0x110000 := c.valid
  have hc : c.val.toNat = c.toNat := rfl
  simp only [String.utf8EncodeChar, hc]
  split_ifs with h₁ h₂ h₃
  · simp [read, start, of_one (show c.toNat < 0x80 by omega), Char.ofNat_toNat]
  · rw [show c.toNat / 64 % 0x20 = c.toNat / 64 by omega]
    simp only [List.foldl_cons, List.foldl_nil]
    rw [read_begins (of_two (by omega) (by omega)),
      read_last (by omega) (by omega) (by omega), char_eq_ofNat (c := c) (by omega)]
  · rw [show c.toNat / 4096 % 0x10 = c.toNat / 4096 by omega]
    simp only [List.foldl_cons, List.foldl_nil]
    -- overlong forms and surrogates are what the bounds on the second byte keep out
    rw [read_begins (of_three (by omega)),
      read_next (by split_ifs <;> omega) (by split_ifs <;> omega) (by omega),
      read_last (by omega) (by omega) (by omega), char_eq_ofNat (c := c) (by omega)]
  · rw [show c.toNat / 262144 % 0x08 = c.toNat / 262144 by omega]
    simp only [List.foldl_cons, List.foldl_nil]
    rw [read_begins (of_four (by omega)),
      read_next (by split_ifs <;> omega) (by split_ifs <;> omega) (by omega),
      read_next (by omega) (by omega) (by omega),
      read_last (by omega) (by omega) (by omega), char_eq_ofNat (c := c) (by omega)]

theorem foldl_read_flatMap (cs done : List Char) :
    (cs.flatMap String.utf8EncodeChar).foldl read ⟨done, none⟩ = ⟨cs.reverse ++ done, none⟩ := by
  induction cs generalizing done with
  | nil => rfl
  | cons c cs ih =>
    rw [List.flatMap_cons, List.foldl_append, foldl_read_utf8EncodeChar, ih]
    simp

end LossyReader

/-- Reading leniently undoes writing. -/
theorem ofUtf8Lossy_utf8 (s : String) : ofUtf8Lossy (utf8 s) = s := by
  simp only [ofUtf8Lossy]
  rw [utf8_eq_flatMap, LossyReader.foldl_read_flatMap]
  simp [LossyReader.finish]

end ArchiveMount.Text

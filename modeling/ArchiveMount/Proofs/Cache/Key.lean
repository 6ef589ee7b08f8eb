/-
# `ArchiveMount.Proofs.Cache.Key` — what a record's name tells about its key

A record is named by a digest of its key's `encoding`.  As long as no two encodings in use
have one BLAKE3 hash (`CacheKey.NoCollision`), the name tells the encoding, and the encoding
tells the kind of the key and, for a file, its checksum: kind and checksum stand at the two
ends, so nothing that a locator contains can hide them.

If its numbers fit their widths, the encoding tells the whole key (`encoding_eq_iff_of_fits`).
The zero behind a locator does not delimit it, for a locator may contain zeros and so may the
numbers; but the kind tells how many bytes the numbers take, and they stand at the end.
-/
import ArchiveMount.Cache.Key
import ArchiveMount.Proofs.Bytes

namespace ArchiveMount.CacheKey

/-- BLAKE3 has no collision on the keys: it hashes only equal encodings to one value. -/
def NoCollision (ks : List CacheKey) : Prop :=
  ∀ k ∈ ks, ∀ k' ∈ ks, Blake3.hash k.encoding = Blake3.hash k'.encoding → k.encoding = k'.encoding

theorem NoCollision.encoding_eq {ks : List CacheKey} (h : NoCollision ks) {k k' : CacheKey}
    (hk : k ∈ ks) (hk' : k' ∈ ks) (hd : k.digest = k'.digest) : k.encoding = k'.encoding :=
  h k hk k' hk' (Bytes.hex_inj hd)

variable {locator locator' : String} {headerOffset compressedSize size : Nat} {crc crc' : UInt32}

/-- The first letter tells a directory from a file. -/
theorem encoding_range_ne_entry (objectSize start stop : Nat) :
    (range locator objectSize start stop).encoding ≠
      (entry locator' headerOffset compressedSize size crc).encoding := by
  intro h
  have hhead := congrArg List.head? h
  have hrange : Text.utf8 "range" = [114, 97, 110, 103, 101] := by decide
  have hentry : Text.utf8 "entry" = [101, 110, 116, 114, 121] := by decide
  simp only [encoding, hrange, hentry, List.cons_append, List.head?_cons] at hhead
  exact absurd hhead (by decide)

/-- The checksum stands at the end, in a fixed width. -/
theorem crc_eq_of_encoding_eq {headerOffset' compressedSize' size' : Nat}
    (h : (entry locator headerOffset compressedSize size crc).encoding =
      (entry locator' headerOffset' compressedSize' size' crc').encoding) : crc = crc' := by
  have hfits : ∀ c : UInt32, c.toNat < Bytes.capacity 4 := fun c => c.toNat_lt
  obtain ⟨-, hcrc⟩ := List.append_inj' h (by simp)
  exact UInt32.toNat_inj.1 (Bytes.ofNat_inj (hfits crc) (hfits crc') hcrc)

/-! ## The whole key -/

/-- The text that stands for the kind of a key. -/
def kind : CacheKey → String
  | .entry .. => "entry"
  | .range .. => "range"

/-- The text of the locator. -/
def locatorText : CacheKey → String
  | .entry locator .. => locator
  | .range locator .. => locator

/-- The numbers of a key, each behind the width it is written in. -/
def fields : CacheKey → List (Nat × Nat)
  | .entry _ headerOffset compressedSize size crc =>
    [(8, headerOffset), (8, compressedSize), (8, size), (4, crc.toNat)]
  | .range _ objectSize start stop => [(8, objectSize), (8, start), (8, stop)]

/-- Every number fits its width. -/
def Fits (k : CacheKey) : Prop := ∀ n ∈ k.fields, n.2 < Bytes.capacity n.1

instance (k : CacheKey) : Decidable k.Fits := inferInstanceAs (Decidable (∀ n ∈ k.fields, _))

variable {k k' : CacheKey}

/-- Kind and locator, each ended by a zero, and the numbers. -/
theorem encoding_eq_append (k : CacheKey) :
    k.encoding = Text.utf8 k.kind ++ 0 :: Text.utf8 k.locatorText ++ 0 :: Bytes.numbers k.fields := by
  cases k <;> simp [encoding, kind, locatorText, fields, word, Bytes.numbers]

/-- The kind tells which numbers follow. -/
theorem widths_eq_of_kind_eq (h : k.kind = k'.kind) :
    k.fields.map (·.1) = k'.fields.map (·.1) := by
  cases k <;> cases k'
  case entry.entry => rfl
  case range.range => rfl
  case entry.range => simp [kind] at h
  case range.entry => simp [kind] at h

/-- The encoding tells the kind. -/
theorem kind_eq_of_encoding_eq (h : k.encoding = k'.encoding) : k.kind = k'.kind := by
  cases k <;> cases k'
  case entry.entry => rfl
  case range.range => rfl
  case entry.range => exact absurd h.symm (encoding_range_ne_entry _ _ _)
  case range.entry => exact absurd h (encoding_range_ne_entry _ _ _)

/-- Kind, locator and numbers are all there is to a key. -/
theorem eq_of_fields_eq (hkind : k.kind = k'.kind) (hlocator : k.locatorText = k'.locatorText)
    (hfields : k.fields = k'.fields) : k = k' := by
  cases k <;> cases k'
  case entry.entry =>
    simp only [fields, List.cons.injEq, Prod.mk.injEq, true_and, and_true, UInt32.toNat_inj]
      at hfields
    obtain ⟨rfl, rfl, rfl, rfl⟩ := hfields
    exact congrArg (entry · _ _ _ _) hlocator
  case range.range =>
    simp only [fields, List.cons.injEq, Prod.mk.injEq, true_and, and_true] at hfields
    obtain ⟨rfl, rfl, rfl⟩ := hfields
    exact congrArg (range · _ _ _) hlocator
  case entry.range => simp [kind] at hkind
  case range.entry => simp [kind] at hkind

/-- Keys whose numbers fit are encoded alike only if they are one key, whatever stands in
their locators. -/
theorem encoding_eq_iff_of_fits (hk : k.Fits) (hk' : k'.Fits) :
    k.encoding = k'.encoding ↔ k = k' := by
  constructor
  · intro h
    have hkind := kind_eq_of_encoding_eq h
    have hwidths := widths_eq_of_kind_eq hkind
    have hlength : (Bytes.numbers k.fields).length = (Bytes.numbers k'.fields).length := by
      rw [Bytes.length_numbers, Bytes.length_numbers, Bytes.totalWidth_congr hwidths]
    rw [encoding_eq_append, encoding_eq_append, hkind] at h
    -- the numbers take as many bytes in both, so what stands before them is the same
    obtain ⟨hfront, hback⟩ := List.append_inj' h (by simpa using hlength)
    have hnumbers := (List.cons.inj hback).2
    have hlocator := (List.cons.inj (List.append_cancel_left hfront)).2
    exact eq_of_fields_eq hkind (Text.utf8_injective hlocator)
      (Bytes.numbers_inj hwidths hk hk' hnumbers)
  · intro h
    rw [h]

/-! The encoding of one key begins with that of another, whose locator lacks a zero. -/
namespace Padded

def plain : CacheKey := .entry "a" 0 0 0 0

def padded : CacheKey := .entry "a\x00" 0 0 0 0

theorem told_apart : plain.Fits ∧ padded.Fits ∧ plain.encoding <+: padded.encoding ∧
    plain.encoding ≠ padded.encoding := by
  have hplain : plain.Fits := by decide
  have hpadded : padded.Fits := by decide
  refine ⟨hplain, hpadded, by decide, ?_⟩
  intro h
  exact absurd ((encoding_eq_iff_of_fits hplain hpadded).1 h) (by decide)

end Padded

end ArchiveMount.CacheKey

/-
# `ArchiveMount.Text.Utf8` — text as bytes

`utf8` writes a text, `ofUtf8?` reads one back and refuses anything that is not
well-formed; `ofUtf8?_utf8` says that nothing is lost.  `ofUtf8Lossy` reads any
bytes at all: it puts one replacement character for each maximal ill-formed
subsequence, which is the longest run of bytes that begins a character and then
fails to go on, or a single byte that begins none.
-/
import ArchiveMount.Bytes

namespace ArchiveMount.Text

/-- The UTF-8 form of a text. -/
def utf8 (s : String) : Bytes := s.toByteArray.data.toList

/-- The text whose UTF-8 form this is, if there is one. -/
def ofUtf8? (b : Bytes) : Option String := String.fromUTF8? ⟨b.toArray⟩

theorem ofUtf8?_utf8 (s : String) : ofUtf8? (utf8 s) = some s := by
  have h : (⟨(utf8 s).toArray⟩ : ByteArray) = s.toByteArray := by simp [utf8]
  simp only [ofUtf8?, h, String.fromUTF8?]
  rw [dif_pos s.isValidUTF8]
  rfl

theorem utf8_injective {s t : String} (h : utf8 s = utf8 t) : s = t := by
  have := congrArg ofUtf8? h
  simpa [ofUtf8?_utf8] using this

/-- What is read was written. -/
theorem eq_utf8_of_ofUtf8? {b : Bytes} {s : String} (h : ofUtf8? b = some s) : b = utf8 s := by
  simp only [ofUtf8?, String.fromUTF8?] at h
  split at h
  · obtain rfl := Option.some.inj h
    simp [utf8, String.fromUTF8]
  · cases h

/-! ## Reading what is not quite UTF-8 -/

/-- A character of which some bytes have been read: how many are missing, the
bounds on the next one, and the bits so far. -/
structure Partial where
  missing : Nat
  low : Nat
  high : Nat
  bits : Nat

/-- What a byte is at the start of a character. -/
inductive Lead
  | whole (c : Char)
  | begins (p : Partial)
  | stray

/-- The well-formed lead bytes and what each allows in second place.  The bounds
keep out overlong forms, surrogates and everything above the last code point. -/
def Lead.of (b : UInt8) : Lead :=
  let n := b.toNat
  if n < 0x80 then .whole (Char.ofNat n)
  else if n < 0xC2 then .stray
  else if n < 0xE0 then .begins ⟨1, 0x80, 0xBF, n - 0xC0⟩
  else if n = 0xE0 then .begins ⟨2, 0xA0, 0xBF, 0⟩
  else if n = 0xED then .begins ⟨2, 0x80, 0x9F, 0xD⟩
  else if n < 0xF0 then .begins ⟨2, 0x80, 0xBF, n - 0xE0⟩
  else if n = 0xF0 then .begins ⟨3, 0x90, 0xBF, 0⟩
  else if n < 0xF4 then .begins ⟨3, 0x80, 0xBF, n - 0xF0⟩
  else if n = 0xF4 then .begins ⟨3, 0x80, 0x8F, 4⟩
  else .stray

/-- The character put in place of an ill-formed subsequence. -/
def replacement : Char := Char.ofNat 0xFFFD

/-- A reader of possibly ill-formed UTF-8: the characters so far, last first, and
the character in progress. -/
structure LossyReader where
  done : List Char := []
  inProgress : Option Partial := none

namespace LossyReader

/-- Read a byte where a character may begin. -/
def start (done : List Char) (b : UInt8) : LossyReader :=
  match Lead.of b with
  | .whole c => ⟨c :: done, none⟩
  | .begins p => ⟨done, some p⟩
  | .stray => ⟨replacement :: done, none⟩

/-- Read one more byte.  A byte that cannot continue the character in progress
ends an ill-formed subsequence and is looked at afresh. -/
def read (r : LossyReader) (b : UInt8) : LossyReader :=
  match r.inProgress with
  | none => start r.done b
  | some p =>
    if p.low ≤ b.toNat ∧ b.toNat ≤ p.high then
      let bits := p.bits * 64 + b.toNat % 64
      if p.missing ≤ 1 then ⟨Char.ofNat bits :: r.done, none⟩
      else ⟨r.done, some ⟨p.missing - 1, 0x80, 0xBF, bits⟩⟩
    else start (replacement :: r.done) b

/-- The characters read, once the bytes are at an end. -/
def finish (r : LossyReader) : List Char :=
  match r.inProgress with
  | none => r.done.reverse
  | some _ => (replacement :: r.done).reverse

end LossyReader

/-- Any bytes as text, each maximal ill-formed subsequence as one replacement
character. -/
def ofUtf8Lossy (b : Bytes) : String :=
  String.ofList ((b.foldl LossyReader.read {}).finish)

end ArchiveMount.Text

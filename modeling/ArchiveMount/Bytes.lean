/-
# `ArchiveMount.Bytes` — byte strings and the numbers written in them

Everything below the text layer is a `Bytes`.  Numbers are little-endian
throughout: `Bytes.toNat` reads one, `Bytes.ofNat w` writes one in `w` bytes, and
the two are inverse on numbers that fit (`toNat_ofNat`, `ofNat_toNat`).
`Bytes.field b start width` reads the number standing at an offset.
-/

namespace ArchiveMount

/-- A byte string. -/
abbrev Bytes := List UInt8

namespace Bytes

/-! ## Little-endian numbers -/

/-- The number a byte string writes, least significant byte first. -/
def toNat : Bytes → Nat
  | [] => 0
  | b :: bs => b.toNat + 256 * toNat bs

/-- The low `8 * width` bits of `n` in `width` bytes, least significant first. -/
def ofNat : (width n : Nat) → Bytes
  | 0, _ => []
  | w + 1, n => UInt8.ofNat n :: ofNat w (n / 256)

/-- The `len` bytes at offset `start`, or what there is of them. -/
def slice (b : Bytes) (start len : Nat) : Bytes :=
  (b.drop start).take len

/-- The number in the `width` bytes at offset `start`. -/
def field (b : Bytes) (start width : Nat) : Nat :=
  toNat (slice b start width)

/-- How many numbers `width` bytes can write. -/
def capacity : (width : Nat) → Nat
  | 0 => 1
  | w + 1 => capacity w * 256

@[simp] theorem length_ofNat (w n : Nat) : (ofNat w n).length = w := by
  induction w generalizing n with
  | zero => rfl
  | succ w ih => simp [ofNat, ih]

theorem toNat_lt (b : Bytes) : toNat b < capacity b.length := by
  induction b with
  | nil => simp [toNat, capacity]
  | cons x b ih =>
    have hx := x.toNat_lt
    simp only [toNat, List.length_cons, capacity]
    omega

theorem toNat_ofNat (w n : Nat) (h : n < capacity w) : toNat (ofNat w n) = n := by
  induction w generalizing n with
  | zero =>
    have h : n < 1 := h
    simp [ofNat, toNat, Nat.lt_one_iff.1 h]
  | succ w ih =>
    have h : n < capacity w * 256 := h
    have hq : n / 256 < capacity w := by omega
    simp only [ofNat, toNat, ih _ hq, UInt8.toNat_ofNat']
    omega

theorem ofNat_toNat (b : Bytes) : ofNat b.length (toNat b) = b := by
  induction b with
  | nil => rfl
  | cons x b ih =>
    have hx := x.toNat_lt
    have hq : (x.toNat + 256 * toNat b) / 256 = toNat b := by omega
    simp only [List.length_cons, toNat, ofNat, hq, ih, List.cons.injEq, and_true]
    apply UInt8.toNat_inj.1
    simp only [UInt8.toNat_ofNat']
    omega

/-! ## Hexadecimal text -/

/-- The lower-case hexadecimal digit of a number below 16. -/
def hexDigit (n : Nat) : Char :=
  Char.ofNat (if n < 10 then 48 + n else 87 + n)

/-- Two lower-case hexadecimal digits for each byte. -/
def hex (b : Bytes) : String :=
  String.ofList (b.flatMap fun x => [hexDigit (x.toNat / 16), hexDigit (x.toNat % 16)])

/-- `n` in lower-case hexadecimal, filled with zeros to at least `width` digits. -/
def hexNat (width n : Nat) : String :=
  let digits := Nat.toDigits 16 n
  String.ofList (List.replicate (width - digits.length) '0' ++ digits)

end Bytes

end ArchiveMount

/-
# `ArchiveMount.Locator.Percent` — percent encoding

`encode s` writes each character of a text for which `s` holds as its UTF-8 bytes in
`%XX` form; characters outside ASCII are always written so.  `decode` reads the form
back and leaves a `%` that two hexadecimal digits do not follow as it is.
-/
import ArchiveMount.Text.Utf8

namespace ArchiveMount.Percent

/-! ## What each part of a locator encodes -/

/-- Control characters and everything outside ASCII. -/
def inAny (c : Char) : Bool := c.toNat < 0x20 || 0x7E < c.toNat

def inFragment (c : Char) : Bool := inAny c || " \"<>`".contains c

def inQuery (c : Char) : Bool := inAny c || " \"#<>".contains c

/-- Queries of the schemes of the web encode the single quote as well. -/
def inSpecialQuery (c : Char) : Bool := inQuery c || c = '\''

def inPath (c : Char) : Bool := inFragment c || "#?\x7b\x7d".contains c

def inUserinfo (c : Char) : Bool := inPath c || "/:;=@[\\]^|".contains c

/-! ## Encoding and decoding -/

/-- The upper-case hexadecimal digit of a number below 16. -/
def upperHexDigit (n : Nat) : Char :=
  Char.ofNat (if n < 10 then 48 + n else 55 + n)

/-- One byte in `%XX` form. -/
def encodeByte (b : UInt8) : List Char :=
  ['%', upperHexDigit (b.toNat / 16), upperHexDigit (b.toNat % 16)]

/-- One character, encoded if it has to be. -/
def encodeChar (mustEncode : Char → Bool) (c : Char) : List Char :=
  if mustEncode c then (Text.utf8 c.toString).flatMap encodeByte else [c]

/-- A text with the characters encoded that have to be. -/
def encode (mustEncode : Char → Bool) (s : List Char) : List Char :=
  s.flatMap (encodeChar mustEncode)

/-- The value of a hexadecimal digit, in either case. -/
def hexValue? (b : UInt8) : Option UInt8 :=
  if 48 ≤ b ∧ b ≤ 57 then some (b - 48)
  else if 65 ≤ b ∧ b ≤ 70 then some (b - 55)
  else if 97 ≤ b ∧ b ≤ 102 then some (b - 87)
  else none

/-- Replace each `%XX` by the byte it stands for. -/
def decode : Bytes → Bytes
  | 37 :: x :: y :: rest =>
    match hexValue? x, hexValue? y with
    | some hi, some lo => (hi * 16 + lo) :: decode rest
    | _, _ => 37 :: decode (x :: y :: rest)
  | b :: rest => b :: decode rest
  | [] => []

end ArchiveMount.Percent

/-
# `ArchiveMount.Locator.Address` — numeric hosts

An IPv4 host has up to four numbers, each decimal, octal (`0…`) or hexadecimal
(`0x…`); the last one fills whatever bytes are left.  An IPv6 host has eight pieces of
16 bits, of which one run of zeros may be left out and the last two may be written as
four decimal bytes.  Both are shown in one canonical form.
-/
import ArchiveMount.Text.Pieces
import ArchiveMount.Bytes

namespace ArchiveMount.Address

/-! ## Digits -/

/-- The value of a digit in some base. -/
def digit? (base : Nat) (c : Char) : Option Nat :=
  let n := c.toNat
  let v :=
    if 48 ≤ n ∧ n ≤ 57 then n - 48
    else if 65 ≤ n ∧ n ≤ 90 then n - 55
    else if 97 ≤ n ∧ n ≤ 122 then n - 87
    else base
  if v < base then some v else none

/-- The number some digits write; none means zero. -/
def number? (base : Nat) (digits : List Char) : Option Nat :=
  digits.foldlM (fun n c => (digit? base c).map (n * base + ·)) 0

/-! ## IPv4 -/

/-- One part of an IPv4 host. -/
def ipv4Part? : List Char → Option Nat
  | [] => none
  | '0' :: 'x' :: digits => number? 16 digits
  | '0' :: 'X' :: digits => number? 16 digits
  | '0' :: d :: digits => number? 8 (d :: digits)
  | digits => number? 10 digits

/-- The dot-separated parts of a host; a trailing dot makes no part of its own. -/
def hostParts (host : List Char) : List (List Char) :=
  let parts := Text.pieces (· = '.') host
  if 1 < parts.length ∧ parts.getLast? = some [] then parts.dropLast else parts

/-- A host whose last part looks like a number has to be an IPv4 address. -/
def endsInNumber (host : List Char) : Bool :=
  match (hostParts host).getLast? with
  | none => false
  | some part => part ≠ [] && part.all (fun c => '0' ≤ c && c ≤ '9') || (ipv4Part? part).isSome

/-- The 32-bit value of an IPv4 host. -/
def ipv4? (host : List Char) : Option Nat := do
  let parts := hostParts host
  if 4 < parts.length then none
  let numbers ← parts.mapM ipv4Part?
  let last ← numbers.getLast?
  let leading := numbers.dropLast
  if leading.any (255 < ·) || 1 <<< (8 * (4 - leading.length)) ≤ last then none
  let high := leading.zipIdx.foldl (fun sum (n, i) => sum + n <<< (8 * (3 - i))) 0
  return high + last

/-- Four decimal bytes with dots between them. -/
def renderIpv4 (value : Nat) : String :=
  ".".intercalate ([3, 2, 1, 0].map fun i => toString (value >>> (8 * i) % 256))

/-! ## IPv6 -/

/-- The pieces of an IPv6 host that have been read, and where zeros were left out. -/
structure Ipv6Reader where
  pieces : List Nat := []
  gap : Option Nat := none

/-- Number of pieces spoken for; a gap stands for one at least. -/
def Ipv6Reader.count (r : Ipv6Reader) : Nat :=
  r.pieces.length + (if r.gap.isSome then 1 else 0)

/-- A decimal byte without superfluous zeros. -/
def decimalByte? (digits : List Char) : Option Nat :=
  if digits.isEmpty || (digits.head? = some '0' && 1 < digits.length) then none
  else match number? 10 digits with
    | some n => if n < 256 then some n else none
    | none => none

/-- The last two pieces, written as four decimal bytes. -/
def embeddedIpv4? (s : List Char) : Option (List Nat) :=
  match (Text.pieces (· = '.') s).mapM decimalByte? with
  | some [a, b, c, d] => some [a * 256 + b, c * 256 + d]
  | _ => none

/-- Read the pieces that are left; `fuel` is the number of characters. -/
def readPieces : (fuel : Nat) → Ipv6Reader → List Char → Option Ipv6Reader
  | _, r, [] => some r
  | 0, _, _ => none
  | fuel + 1, r, c :: s =>
    if 8 ≤ r.count then none
    else if c = ':' then
      if r.gap.isSome then none
      else readPieces fuel { r with gap := some r.pieces.length } s
    else
      let digits := ((c :: s).take 4).takeWhile fun d => (digit? 16 d).isSome
      match (c :: s).drop digits.length with
      | [] =>
        (number? 16 digits).map fun n => { r with pieces := r.pieces ++ [n] }
      | '.' :: _ =>
        if digits.isEmpty || 6 < r.count then none
        else (embeddedIpv4? (c :: s)).map fun ns => { r with pieces := r.pieces ++ ns }
      | ':' :: rest =>
        if rest.isEmpty then none
        else match number? 16 digits with
          | some n => readPieces fuel { r with pieces := r.pieces ++ [n] } rest
          | none => none
      | _ => none

/-- All eight pieces, the gap filled with zeros. -/
def fillGap (r : Ipv6Reader) : Option (List Nat) :=
  match r.gap with
  | none => if r.pieces.length = 8 then some r.pieces else none
  | some at_ =>
    if 8 < r.count then none
    else
      let zeros := List.replicate (8 - r.pieces.length) 0
      some (r.pieces.take at_ ++ zeros ++ r.pieces.drop at_)

/-- The pieces of an IPv6 host, which stands without its brackets. -/
def ipv6? (s : List Char) : Option (List Nat) :=
  let r := match s with
    | ':' :: ':' :: rest => readPieces rest.length { gap := some 0 } rest
    | ':' :: _ => none
    | [] => none
    | [_] => none
    | _ => readPieces s.length {} s
  r.bind fillGap

/-- Length of the run of zeros at the start. -/
def zeroRun (pieces : List Nat) : Nat := (pieces.takeWhile (· = 0)).length

/-- Start and length of the longest run of at least two zeros, the first of several. -/
def longestZeroRun (pieces : List Nat) : Option (Nat × Nat) :=
  (List.range pieces.length).foldl (fun best i =>
    let n := zeroRun (pieces.drop i)
    if (best.map (·.2)).getD 1 < n then some (i, n) else best) none

/-- Hexadecimal pieces with colons between them. -/
def renderPieces (pieces : List Nat) : String :=
  ":".intercalate (pieces.map (Bytes.hexNat 1))

/-- The canonical form, with the longest run of zeros left out. -/
def renderIpv6 (pieces : List Nat) : String :=
  match longestZeroRun pieces with
  | none => renderPieces pieces
  | some (start, n) =>
    s!"{renderPieces (pieces.take start)}::{renderPieces (pieces.drop (start + n))}"

end ArchiveMount.Address

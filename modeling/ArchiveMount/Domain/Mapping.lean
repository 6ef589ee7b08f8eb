/-
# `ArchiveMount.Domain.Mapping` — characters of a domain name

Domain names do not tell capital letters from small ones, nor wide or decorated forms
from plain ones.  `map?` gives the characters that one counts as: none at all for one
that cannot be seen, and nothing for one that no name holds.  A character is `valid`
if it counts as itself.
-/
import ArchiveMount.Domain.Mapping.Table

namespace ArchiveMount.Domain

/-- How some characters are mapped: those from `first` to `last` at distances of
`step`. -/
structure Mapping where
  first : Nat
  last : Nat
  step : Nat
  /-- What the first one counts as; a later one counts as so much later. -/
  target : List Nat

namespace Mapping

/-- The mapping that an entry of the table states. -/
def ofEntry? (entry : List Char) : Option Mapping :=
  (Text.cutAt? ':' entry).map fun (source, target) =>
    let (range, step) := (Text.cutAt? '/' source).getD (source, ['1'])
    let (first, last) := Text.codeRange range
    { first, last, step := Text.hexNumber step
      target := (Text.pieces (· = '+') target).map Text.hexNumber }

/-- What a character is mapped to, if it is one of these. -/
def image? (m : Mapping) (c : Char) : Option (List Char) :=
  if m.first ≤ c.toNat ∧ c.toNat ≤ m.last ∧ (c.toNat - m.first) % m.step = 0 then
    some (m.target.map fun n => Char.ofNat (n + (c.toNat - m.first)))
  else none

/-- All mappings outside ASCII. -/
def all : Array Mapping := ((Text.tableEntries targets).filterMap ofEntry?).toArray

/-- What a character counts as. -/
def map? (c : Char) : Option (List Char) :=
  if c.toNat < 0x80 then some [c.toLower]
  else if refused.contains c then none
  else if ignored.contains c then some []
  else some ((all.findSome? (·.image? c)).getD [c])

/-- Whether a character counts as itself. -/
def isValid (c : Char) : Bool := map? c = some [c]

end Mapping

end ArchiveMount.Domain

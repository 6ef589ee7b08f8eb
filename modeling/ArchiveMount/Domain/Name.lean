/-
# `ArchiveMount.Domain.Name` — domain names in ASCII

A domain name is shown in ASCII.  Its characters are mapped and composed, and a label
that still has others than ASCII ones is written in Punycode after `xn--`.  A label that
comes with that mark has to be one that could have been written so.  Characters that
delimit the parts of a locator, blanks and control characters cannot stand in a name.
-/
import ArchiveMount.Domain.Direction
import ArchiveMount.Domain.Joining
import ArchiveMount.Domain.Mapping
import ArchiveMount.Domain.Punycode

namespace ArchiveMount.Domain

def isAscii (c : Char) : Bool := c.toNat < 0x80

/-- Characters that no domain name holds. -/
def isDenied (c : Char) : Bool :=
  c.toNat ≤ 0x20 || c.toNat = 0x7F || "%#/:<>?@[\\]^|".contains c

/-! ## Labels -/

/-- What stands between the dots of a name. -/
structure Label where
  /-- The label as it is meant. -/
  meant : List Char
  /-- Its ASCII form. -/
  ascii : List Char

namespace Label

/-- What stands before a label in Punycode. -/
def mark : List Char := "xn--".toList

/-- The longest label with others than ASCII characters. -/
def maxLen : Nat := 1000

/-- The longest text in Punycode. -/
def maxPunycode : Nat := 2000

/-- Whether a label with others than ASCII characters can stand in a name. -/
def isWellFormed (label : List Char) : Bool :=
  label.length ≤ maxLen && !label.head?.any Mark.isMark && Joining.allAllowed [] label

/-- A label in Punycode, without the mark.  It has to mean what mapping and composing
leave as it is. -/
def ofPunycode? (s : List Char) : Option Label := do
  if !s.all isAscii || s.isEmpty || s.getLast? = some '-' || maxPunycode < s.length then none
  let meant ← Punycode.decode? s
  if meant.all Mapping.isValid && Composition.compose meant = meant && isWellFormed meant then
    return { meant, ascii := mark ++ s }
  else none

/-- A label of a mapped and composed name. -/
def ofText? (s : List Char) : Option Label :=
  if mark.isPrefixOf s then ofPunycode? (s.drop mark.length)
  else if s.all isAscii then some { meant := s, ascii := s }
  else if isWellFormed s then some { meant := s, ascii := mark ++ Punycode.encode s }
  else none

end Label

/-! ## Names -/

/-- The ASCII form of a name, if it has one. -/
def toAscii? (name : List Char) : Option (List Char) := do
  let mapped ← name.mapM Mapping.map?
  let name := Composition.compose mapped.flatten
  if name.any isDenied then none
  let labels ← (Text.pieces (· = '.') name).mapM Label.ofText?
  let meant := labels.map Label.meant
  if meant.any Direction.hasToLeft && !meant.all Direction.isUniform then none
  return ['.'].intercalate (labels.map Label.ascii)

end ArchiveMount.Domain

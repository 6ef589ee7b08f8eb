/-
# `ArchiveMount.Text.CodePoints` — tables of characters

What a standard says of many characters is kept as text: entries between blanks, in
hexadecimal numbers, where `300-36f` stands for all characters from the first to the
last.  `CodePoints.ofTable` reads such a table as a set of characters; tables that say
more than a set does are read entry by entry where their meaning is.
-/
import ArchiveMount.Text.Pieces

namespace ArchiveMount.Text

/-- The entries of a table. -/
def tableEntries (table : String) : List (List Char) :=
  (pieces Char.isWhitespace table.toList).filter (!·.isEmpty)

/-- The value of hexadecimal digits, which are in lower case. -/
def hexNumber (digits : List Char) : Nat :=
  digits.foldl (fun n c => n * 16 + (if c.isDigit then c.toNat - 48 else c.toNat - 87)) 0

/-- First and last code point of an entry. -/
def codeRange (entry : List Char) : Nat × Nat :=
  let (first, last) := (cutAt? '-' entry).getD (entry, entry)
  (hexNumber first, hexNumber last)

/-- A set of characters: inclusive ranges of code points. -/
structure CodePoints where
  ranges : Array (Nat × Nat)

namespace CodePoints

/-- The set that a table lists. -/
def ofTable (table : String) : CodePoints :=
  ⟨((tableEntries table).map codeRange).toArray⟩

def contains (s : CodePoints) (c : Char) : Bool :=
  s.ranges.any fun (first, last) => first ≤ c.toNat && c.toNat ≤ last

end CodePoints

end ArchiveMount.Text

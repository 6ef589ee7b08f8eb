/-
# `ArchiveMount.Text.Quoted` — text in double quotes

How a message shows a text it did not write itself.  The result stands in double
quotes; a quote and a backslash take a backslash, five control characters have a
letter of their own, and whatever else cannot be seen on its own is spelled by its
number.  A single quote stands as it is.
-/
import ArchiveMount.Bytes
import ArchiveMount.Text.Unprintable

namespace ArchiveMount.Text

/-- One character inside double quotes. -/
def quotedChar (c : Char) : List Char :=
  if c = '"' then ['\\', '"']
  else if c = '\\' then ['\\', '\\']
  else if c = '\n' then ['\\', 'n']
  else if c = '\r' then ['\\', 'r']
  else if c = '\t' then ['\\', 't']
  else if c = '\x00' then ['\\', '0']
  else if isUnprintable c then
    ['\\', 'u', '\x7b'] ++ Nat.toDigits 16 c.toNat ++ ['\x7d']
  else [c]

/-- A text in double quotes, with escapes. -/
def quoted (s : String) : String :=
  String.ofList ('"' :: s.toList.flatMap quotedChar ++ ['"'])

end ArchiveMount.Text

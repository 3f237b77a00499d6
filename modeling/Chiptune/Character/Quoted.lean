/-
Texts in quotes.

A quoted text can be read back without doubt: its quotes and backslashes are
escaped, and every character that does not show as itself is written by its
code point, in lowercase hexadecimal.
-/
import Chiptune.Character.Extending
import Chiptune.Character.Ignorable
import Chiptune.Character.Printable

namespace Chiptune.Character

/-- Whether a character shows as itself: it prints, visibly and in a place of its own. -/
def isShown (c : Char) : Bool := isPrintable c && !isExtending c && !isIgnorable c

/-- A character as it stands in a quoted text. -/
def escaped (c : Char) : List Char :=
  if c = '"' then ['\\', '"']
  else if c = '\\' then ['\\', '\\']
  else if c = '\n' then ['\\', 'n']
  else if c = '\r' then ['\\', 'r']
  else if c = '\t' then ['\\', 't']
  else if c = '\x00' then ['\\', '0']
  else if isShown c then [c]
  else ['\\', 'u', '\x7b'] ++ Nat.toDigits 16 c.toNat ++ ['\x7d']

/-- A text in quotes, with every character that does not show as itself escaped. -/
def quoted (text : String) : String :=
  String.ofList (['"'] ++ text.toList.flatMap escaped ++ ['"'])

end Chiptune.Character

import SlotTree.Text.Toggles
import SlotTree.Text.Hidden

/-!
# Text quoted in a diagnostic

A diagnostic shows a piece of the script between double quotes, in a form from which
the reader can tell every character: the usual short escapes, and a numeric escape
for a character that cannot be seen or would attach itself to its neighbour.  This is
a form for people.  The quoted form that a script itself uses is another one and
belongs to the rendering of source.
-/

namespace SlotTree
namespace Text

/-- Lower-case hexadecimal digits of a number, without leading zeros. -/
def hexDigits (n : Nat) : List Char := Nat.toDigits 16 n

/-- Whether a diagnostic replaces the character by its number. -/
def isHidden (c : Char) : Bool :=
  if c.toNat < 128 then c.toNat < 32 || c.toNat == 127 else within hiddenToggles c.toNat

/-- One character as a diagnostic shows it. -/
def shownChar (c : Char) : List Char :=
  if c == '"' then ['\\', '"']
  else if c == '\\' then ['\\', '\\']
  else if c == '\n' then ['\\', 'n']
  else if c == '\r' then ['\\', 'r']
  else if c == '\t' then ['\\', 't']
  else if c.toNat == 0 then ['\\', '0']
  else if isHidden c then ['\\', 'u', '\x7b'] ++ hexDigits c.toNat ++ ['\x7d']
  else [c]

/-- The text between double quotes, as a diagnostic shows it. -/
def quoted (s : String) : String :=
  String.ofList ('"' :: s.toList.flatMap shownChar ++ ['"'])

end Text
end SlotTree

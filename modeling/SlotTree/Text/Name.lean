import SlotTree.Decimal.Basic
import SlotTree.Text.Toggles
import SlotTree.Text.NameStart
import SlotTree.Text.NameContinue

/-!
# Characters of a name

A name starts with a letter or an underscore and goes on with letters, digits,
underscores and marks, where letters, digits and marks are those of every script.
The two classes are the Unicode properties `XID_Start` and `XID_Continue`, the
underscore added to the first.

Inside ASCII the classes are spelled out and the tables are not consulted.  This is
not an optimisation only: that no punctuation, quote or blank can belong to a name is
what keeps the lexical rules apart, and spelled out it can be read off.
-/

namespace SlotTree
namespace Text

/-- An ASCII letter. -/
def isAsciiLetter (c : Char) : Bool :=
  (97 ≤ c.toNat && c.toNat ≤ 122) || (65 ≤ c.toNat && c.toNat ≤ 90)

/-- An ASCII letter in lower case, any other character as it is. -/
def lowerChar (c : Char) : Char :=
  if 65 ≤ c.toNat && c.toNat ≤ 90 then Char.ofNat (c.toNat + 32) else c

/-- Whether a name may start with the character. -/
def isNameStart (c : Char) : Bool :=
  if c.toNat < 128 then isAsciiLetter c || c == '_' else within startToggles c.toNat

/-- Whether a name may go on with the character. -/
def isNameContinue (c : Char) : Bool :=
  if c.toNat < 128 then isAsciiLetter c || Decimal.isDigit 10 c || c == '_'
  else within continueToggles c.toNat

/-- The name that the text starts with, empty if it starts with none. -/
def leadingName : List Char → List Char
  | [] => []
  | c :: cs => if isNameStart c then c :: cs.takeWhile isNameContinue else []

end Text
end SlotTree

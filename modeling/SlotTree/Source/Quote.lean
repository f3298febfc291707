import SlotTree.Json

/-!
# Text as a string literal of a script

A text is written between double quotes.  A backslash, a double quote, a line feed, a
carriage return and a tab have their short escapes, every other control character of
ASCII has a numeric one, and all else stands for itself.  In particular the written form
never contains a line end, so a literal stays on its line.
-/

namespace SlotTree
namespace Source

/-- One character of a string literal. -/
def quoteChar (c : Char) : List Char :=
  if c == '\\' then ['\\', '\\']
  else if c == '"' then ['\\', '"']
  else if c == '\n' then ['\\', 'n']
  else if c == '\r' then ['\\', 'r']
  else if c == '\t' then ['\\', 't']
  else if c.toNat < 32 || c.toNat == 127 then
    ['\\', 'x', Json.hexDigit (c.toNat / 16), Json.hexDigit (c.toNat % 16)]
  else [c]

/-- A text as a string literal, by characters. -/
def quoteChars (cs : List Char) : List Char := '"' :: cs.flatMap quoteChar ++ ['"']

/-- A text as a string literal. -/
def quote (s : String) : String := String.ofList (quoteChars s.toList)

end Source
end SlotTree

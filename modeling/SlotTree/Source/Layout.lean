import SlotTree.Text.Blank
import SlotTree.Text.Lines

/-!
# The layout of source text

Source text in canonical layout has no blanks at the end of a line, no blank lines at its
end, and exactly one line feed after its last line.  Text without any visible character
is empty.

A carriage return before a line feed is blank, so lines that end in both come out with a
line feed alone.
-/

namespace SlotTree
namespace Source

open Text

/-- Lines, each with a line feed after it. -/
def endLines (ls : List (List Char)) : List Char := ls.flatMap fun l => l ++ ['\n']

/-- The text in canonical layout, by characters. -/
def formatChars (cs : List Char) : List Char :=
  endLines (dropEndWhile List.isEmpty ((lines cs).map trimRight))

/-- The text in canonical layout. -/
def format (text : String) : String := String.ofList (formatChars text.toList)

end Source
end SlotTree

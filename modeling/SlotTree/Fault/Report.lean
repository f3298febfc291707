import SlotTree.Fault
import SlotTree.Text.Blank
import SlotTree.Text.Lines

/-!
# The report of a fault

A report shows a fault to a person: its name and tip, the file, the source line and a
caret under the offending character.

    Error: ASTNotSupported (`Assign` syntax cannot be represented yet)
    -> main.py
      |
    1 | x = 1
      | ^

The line is shown without its leading spaces and tabs and without trailing blanks, and
the caret moves left by as many columns as were cut off on the left.  Columns are
counted in characters, although positions count bytes; a position inside a character
is taken as it is.  A detached fault has only its first line, and a position past the
end of the source has no line to show.

The caret is printed as the end of a field that dashes fill, and no field can be wider than
`fieldLimit`.  A fault further to the right than that has a report, but the program that is
to print it stops instead (`report?`).
-/

namespace SlotTree
namespace Fault

open Text

/-- The first line of a report. -/
def headline (fault : Fault) : String :=
  match fault.cause.tip with
  | none => "Error: " ++ fault.cause.name ++ "\n"
  | some tip => "Error: " ++ fault.cause.name ++ " (" ++ tip ++ ")\n"

/-- Whether the character is cut off at the start of a quoted line. -/
def isMargin (c : Char) : Bool := c == ' ' || c == '\t'

/-- The quoted line with the caret below it. -/
def excerpt (place : LinePlace) : List Char :=
  let number := Nat.toDigits 10 place.number
  let gutter := List.replicate (number.length + 1) ' ' ++ ['|']
  let margin := (place.text.takeWhile isMargin).length
  let column := (charsBefore? place.text place.column).getD place.column
  gutter ++ ['\n'] ++
    number ++ [' ', '|', ' '] ++ trimRight (place.text.drop margin) ++ ['\n'] ++
    gutter ++ [' '] ++ List.replicate (column - margin) '-' ++ ['^', '\n']

/-- The report of a fault in a source. -/
def report (fault : Fault) (source : String) : String :=
  if fault.position.isDetached then fault.headline
  else
    let located := fault.headline ++ "-> " ++ fault.position.file ++ "\n"
    match lineAt? source.toList fault.position.offset with
    | none => located
    | some place => located ++ String.ofList (excerpt place)

/-- The width of the widest field that can be printed. -/
def fieldLimit : Nat := 65535

/-- The width of the caret together with the dashes before it. -/
def caretWidth (place : LinePlace) : Nat :=
  (charsBefore? place.text place.column).getD place.column -
    (place.text.takeWhile isMargin).length + 1

/-- Whether no field of the report is too wide. -/
def isPrintable (fault : Fault) (source : String) : Bool :=
  fault.position.isDetached ||
    match lineAt? source.toList fault.position.offset with
    | none => true
    | some place => decide (caretWidth place ≤ fieldLimit)

/-- The report of a fault in a source, if it can be printed. -/
def report? (fault : Fault) (source : String) : Option String :=
  if fault.isPrintable source then some (fault.report source) else none

end Fault
end SlotTree

/-!
# Lines and byte offsets

Positions in a script are byte offsets into its UTF-8 form, while the text itself is
handled as a list of characters.  This module holds the few functions that go from
one to the other: the length of a text in bytes, its lines, and the line in which an
offset lies.

A line keeps the line feed that ends it, so that the lines of a text put together are
the text (`flatten_lines`) and the byte offsets of the lines add up.  The end of the
text belongs to the last line, and a text that ends in a line feed has one more,
empty, line there: an offset may point to the place where the next character would go.
-/

namespace SlotTree
namespace Text

/-- The number of bytes of a text in UTF-8. -/
def byteLength : List Char → Nat
  | [] => 0
  | c :: cs => c.utf8Size + byteLength cs

@[simp] theorem byteLength_nil : byteLength [] = 0 := rfl

@[simp] theorem byteLength_cons (c : Char) (cs : List Char) :
    byteLength (c :: cs) = c.utf8Size + byteLength cs := rfl

theorem byteLength_append (xs ys : List Char) :
    byteLength (xs ++ ys) = byteLength xs + byteLength ys := by
  induction xs with
  | nil => simp
  | cons c cs ih => simp [ih, Nat.add_assoc]

/-- The lines of a text, each with the line feed that ends it. -/
def lines : List Char → List (List Char)
  | [] => []
  | c :: cs =>
    if c == '\n' then [c] :: lines cs
    else
      match lines cs with
      | [] => [[c]]
      | l :: ls => (c :: l) :: ls

@[simp] theorem lines_nil : lines [] = [] := rfl

/-- **Splitting a text into lines loses nothing.** -/
theorem flatten_lines (cs : List Char) : (lines cs).flatten = cs := by
  induction cs with
  | nil => rfl
  | cons c cs ih =>
    rw [lines]
    split
    · simp [ih]
    · split
      · next h => rw [h] at ih; simp at ih; simp [← ih]
      · next h => rw [h] at ih; simp at ih; simp [← ih]

/-- A place in a text: the line's number from one, its text, and the byte column. -/
structure LinePlace where
  number : Nat
  text : List Char
  column : Nat
  deriving DecidableEq, Repr

/-- The place of a byte offset in a list of lines of which the first has the given
number. An offset at the end of a line that no line feed ends still belongs to it. -/
def placeIn : (number : Nat) → (offset : Nat) → List (List Char) → Option LinePlace
  | number, offset, [] => if offset == 0 then some ⟨number, [], 0⟩ else none
  | number, offset, l :: ls =>
    if offset < byteLength l then some ⟨number, l, offset⟩
    else if ls.isEmpty && offset == byteLength l && l.getLast? != some '\n' then
      some ⟨number, l, offset⟩
    else placeIn (number + 1) (offset - byteLength l) ls

/-- The line in which a byte offset lies, if the offset is not past the text. -/
def lineAt? (text : List Char) (offset : Nat) : Option LinePlace :=
  placeIn 1 offset (lines text)

/-- The number of characters before a byte offset, if the offset lies between two
characters. -/
def charsBefore? : (text : List Char) → (offset : Nat) → Option Nat
  | _, 0 => some 0
  | [], _ + 1 => none
  | c :: cs, n + 1 =>
    if c.utf8Size ≤ n + 1 then (charsBefore? cs (n + 1 - c.utf8Size)).map (· + 1) else none

end Text
end SlotTree

/-!
# Blank characters and what is cut off at the end

Two different notions of blank meet in this library.  Between tokens only space,
tab and form feed are blank, which is the business of the scanner.  At the end of a
line of finished text everything that Unicode calls white space is blank, and that
is the notion of this module: it decides what the layout of rendered source and the
quoted line of a report cut off on the right.

Blanks are not all that is cut off at an end.  The canonical layout drops the empty lines
of a text, a command the line feeds, and the shortest form of a number its zeros.  All
four are `dropEndWhile` with a test of their own.  This is Mathlib's `List.rdropWhile`
(`dropEndWhile_eq`), which the program itself does not import.
-/

namespace SlotTree
namespace Text

/-- The Unicode property `White_Space`. -/
def isBlank (c : Char) : Bool :=
  let n := c.toNat
  (9 ≤ n && n ≤ 13) || n == 0x20 || n == 0x85 || n == 0xa0 || n == 0x1680 ||
    (0x2000 ≤ n && n ≤ 0x200a) || n == 0x2028 || n == 0x2029 || n == 0x202f ||
    n == 0x205f || n == 0x3000

/-- The list without the elements at its end that pass the test. -/
def dropEndWhile {α : Type} (p : α → Bool) (l : List α) : List α :=
  (l.reverse.dropWhile p).reverse

/-- Where only one element passes the test, what is cut off is a row of it. -/
theorem exists_dropEndWhile_append {α : Type} {p : α → Bool} {a : α}
    (h : ∀ x, p x = true → x = a) (l : List α) :
    ∃ n, l = dropEndWhile p l ++ List.replicate n a := by
  have hcut : l.reverse.takeWhile p = List.replicate (l.reverse.takeWhile p).length a :=
    List.eq_replicate_of_mem fun x hx => h x (List.all_eq_true.mp List.all_takeWhile x hx)
  refine ⟨(l.reverse.takeWhile p).length, ?_⟩
  calc l
      = (l.reverse.takeWhile p ++ l.reverse.dropWhile p).reverse := by
        rw [List.takeWhile_append_dropWhile, List.reverse_reverse]
    _ = dropEndWhile p l ++ (l.reverse.takeWhile p).reverse := by
        rw [List.reverse_append, dropEndWhile]
    _ = dropEndWhile p l ++ List.replicate (l.reverse.takeWhile p).length a := by
        rw [hcut, List.reverse_replicate, List.length_replicate]

/-- The text without the blanks at its end. -/
def trimRight (cs : List Char) : List Char := dropEndWhile isBlank cs

end Text
end SlotTree

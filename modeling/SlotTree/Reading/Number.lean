import SlotTree.Fault
import SlotTree.Literal
import SlotTree.Text.Name

/-!
# The value of a number token

The text of a number token is read without its underscores and in lower case.  A text
that ends in `j` is imaginary and has no node.  A text in another radix, and a decimal
text without a point and an exponent, is a whole number of 64 bits; every other text is a
floating-point number, which must be finite.

A decimal text must not start with a zero unless all its digits are zero.

The readers accept a sign, which the scanner never puts into a number token; a token that
was made by hand may have one.
-/

namespace SlotTree
namespace Number

/-- The text of a number without underscores, in lower case. -/
def normalise (text : List Char) : List Char :=
  (text.filter fun c => c != '_').map Text.lowerChar

/-- The radix that a text announces, with the digits after the announcement. -/
def splitRadix? : List Char → Option (Nat × List Char)
  | '0' :: 'x' :: cs => some (16, cs)
  | '0' :: 'o' :: cs => some (8, cs)
  | '0' :: 'b' :: cs => some (2, cs)
  | _ => none

/-- A whole number, if it has 64 bits. -/
def wholeNumber? (n : Int) : Option Literal :=
  if -9223372036854775808 ≤ n && n ≤ 9223372036854775807 then some (.int (Int64.ofInt n))
  else none

/-- The value of a normalised text that is not imaginary. -/
def value? (text : List Char) : Option Literal :=
  match splitRadix? text with
  | some (radix, figures) => (Decimal.readInt? radix figures).bind wholeNumber?
  | none =>
    if text.any fun c => c == '.' || c == 'e' then
      (Decimal.read? text).bind fun (negative, d) =>
        let x := Binary64.ofDecimal negative d
        if x.isFinite then some (.float x) else none
    else if text.head? == some '0' && text.any fun c => c != '0' then none
    else (Decimal.readInt? 10 text).bind wholeNumber?

/-- The value of a number token. -/
def read (text : String) : Except Cause Literal :=
  let normal := normalise text.toList
  if normal.getLast? == some 'j' then .error (.constantNotSupported "complex")
  else
    match value? normal with
    | some v => .ok v
    | none => .error (.malformedNumber text)

end Number
end SlotTree

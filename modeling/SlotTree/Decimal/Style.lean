import SlotTree.Decimal.Shortest

/-!
# How a floating-point number is written

The digits of a number are settled by `Binary64.shortestDigits`; what is left is a
handful of decisions, and each place of this library that writes numbers makes them
once, as a value of `FloatStyle`: between which exponents the number is written
without an exponent, whether a positive exponent has a plus sign, how many digits an
exponent has at least, and where a tie goes.

All styles agree on the rest.  Without an exponent there is always a digit on both
sides of the point; with one, the point is written only if a second digit follows; a
negative zero keeps its sign.
-/

namespace SlotTree

/-- The decisions of one format of floating-point numbers. -/
structure FloatStyle where
  /-- The least exponent that is written positionally. -/
  least : Int
  /-- The greatest exponent that is written positionally. -/
  greatest : Int
  /-- Whether a positive exponent is written with a plus sign. -/
  plus : Bool
  /-- The least number of digits of an exponent. -/
  width : Nat
  /-- Where a value between two shortest numerals goes. -/
  tie : Tie
  deriving DecidableEq, Repr

namespace Digits

/-- The digits around a decimal point, without an exponent. -/
def positional (d : Digits) : List Char :=
  match d.exponent with
  | .ofNat e =>
    let whole := d.figures.take (e + 1)
    let fraction := d.figures.drop (e + 1)
    whole ++ List.replicate (e + 1 - whole.length) '0' ++ '.' ::
      (if fraction.isEmpty then ['0'] else fraction)
  | .negSucc e => '0' :: '.' :: (List.replicate e '0' ++ d.figures)

/-- The first digit, the others after a point, and the exponent. -/
def scientific (style : FloatStyle) (d : Digits) : List Char :=
  let mantissa :=
    match d.figures with
    | [] => []
    | [c] => [c]
    | c :: cs => c :: '.' :: cs
  let size := Decimal.digits d.exponent.natAbs
  let sign := if d.exponent < 0 then ['-'] else if style.plus then ['+'] else []
  mantissa ++ 'e' :: (sign ++ List.replicate (style.width - size.length) '0' ++ size)

end Digits

namespace FloatStyle

/-- A finite number in the style. -/
def write (style : FloatStyle) (x : Binary64) : List Char :=
  let d := x.shortestDigits style.tie
  let body :=
    if style.least ≤ d.exponent && d.exponent ≤ style.greatest then d.positional
    else d.scientific style
  if x.isNegative then '-' :: body else body

/-- Source text: positional from `0.0001` to below `10 ^ 16`, otherwise an exponent
with a sign and at least two digits. -/
def source : FloatStyle := ⟨-4, 15, true, 2, .up⟩

/-- A value shown in a diagnostic: positional in the same range as in source text,
otherwise a bare exponent. -/
def shown : FloatStyle := ⟨-4, 15, false, 1, .up⟩

/-- A number in a JSON document: positional from `0.00001` to below `10 ^ 16`,
otherwise an exponent with a sign. -/
def json : FloatStyle := ⟨-5, 15, true, 1, .even⟩

end FloatStyle

/-- A number as a diagnostic shows it, the ones that are not finite included. -/
def Binary64.shown (x : Binary64) : String :=
  if x.isFinite then String.ofList (FloatStyle.shown.write x)
  else if x.isUndefined then "NaN"
  else if x.isNegative then "-inf"
  else "inf"

end SlotTree

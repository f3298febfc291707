/-!
# Decimal numerals

A decimal is a natural number times a power of ten.  It is what a numeral in a script
denotes before it is rounded to a machine number, and what a machine number is turned
into before it is written, so both directions meet here in exact arithmetic.

The digits of a text are read without any bound; only the rounding that follows
decides what a machine number can hold.
-/

namespace SlotTree

/-- The number `coefficient * 10 ^ exponent`. -/
structure Decimal where
  coefficient : Nat
  exponent : Int
  deriving DecidableEq, Repr

namespace Decimal

/-- The value of a digit in any radix up to sixteen, in either case. -/
def digitValue (c : Char) : Nat :=
  let n := c.toNat
  if 48 ≤ n && n ≤ 57 then n - 48
  else if 97 ≤ n && n ≤ 102 then n - 87
  else if 65 ≤ n && n ≤ 70 then n - 55
  else 16

/-- Whether the character is a digit of the radix. -/
def isDigit (radix : Nat) (c : Char) : Bool := digitValue c < radix

/-- The number that a row of digits denotes in the radix. -/
def ofDigits (radix : Nat) (digits : List Char) : Nat :=
  digits.foldl (fun n c => n * radix + digitValue c) 0

/-- The decimal digits of a number, without leading zeros. -/
def digits (n : Nat) : List Char := Nat.toDigits 10 n

/-- How many decimal digits a number has. -/
def size (n : Nat) : Nat := (digits n).length

/-- Splits off one leading sign. The flag says whether it was a minus. -/
def splitSign : List Char → Bool × List Char
  | '-' :: cs => (true, cs)
  | '+' :: cs => (false, cs)
  | cs => (false, cs)

/-- Reads a whole number with an optional sign. At least one digit is needed and
nothing may follow the digits. -/
def readInt? (radix : Nat) (text : List Char) : Option Int :=
  let (negative, body) := splitSign text
  if body.isEmpty || !body.all (isDigit radix) then none
  else
    let n : Int := Int.ofNat (ofDigits radix body)
    some (if negative then -n else n)

/-- Reads what follows the fraction of a numeral: nothing, or `e` and a whole number. -/
def readExponent? : List Char → Option Int
  | [] => some 0
  | 'e' :: cs => readInt? 10 cs
  | _ => none

/-- Reads a numeral with an optional sign, an optional point and an optional exponent.
There must be a digit before or after the point. The flag says whether the numeral
was negative, which matters for zero. -/
def read? (text : List Char) : Option (Bool × Decimal) :=
  let (negative, body) := splitSign text
  let whole := body.takeWhile (isDigit 10)
  let afterWhole := body.dropWhile (isDigit 10)
  let (fraction, rest) :=
    match afterWhole with
    | '.' :: cs => (cs.takeWhile (isDigit 10), cs.dropWhile (isDigit 10))
    | cs => ([], cs)
  if (whole ++ fraction).isEmpty then none
  else
    (readExponent? rest).map fun exponent =>
      (negative, ⟨ofDigits 10 (whole ++ fraction), exponent - Int.ofNat fraction.length⟩)

end Decimal
end SlotTree

import SlotTree.Decimal.Basic

/-!
# Binary floating-point numbers of 64 bits

Floating-point literals are kept as the 64 bits of the IEEE interchange format and not
as the machine type: two literals are the same literal exactly when their bits agree,
a negative zero is not a zero, and everything below computes in natural numbers, so
that a statement about a literal is a statement about numbers.

The key to the arithmetic is the least positive number, `2 ^ -1074`, here called the
*quantum*.  Every finite number is a whole number of quanta, and in these units the
bit pattern of a magnitude is nearly linear: with `k` the number of times the quantum
is doubled and `m` the significand, the pattern of `m * 2 ^ k` quanta is
`k * 2 ^ 52 + m`, for subnormal and normal numbers alike.  A significand that rounding
carries up to `2 ^ 53` lands on the next pattern by itself, and a pattern at or past
that of infinity is infinity.
-/

namespace SlotTree

/-- A floating-point number, by its bits. -/
structure Binary64 where
  bits : UInt64
  deriving DecidableEq, Repr, Inhabited

namespace Binary64

/-- A power of two. -/
def pow2 (n : Nat) : Nat := Nat.pow 2 n

/-- A power of ten. -/
def pow10 (n : Nat) : Nat := Nat.pow 10 n

/-- Whether the sign bit is set. -/
def isNegative (x : Binary64) : Bool := pow2 63 ≤ x.bits.toNat

/-- The bits without the sign. -/
def magnitude (x : Binary64) : Nat := x.bits.toNat % pow2 63

/-- The pattern of infinity; the patterns of finite magnitudes are below it, those of
no number above it. -/
def infinityPattern : Nat := 2047 * pow2 52

/-- Whether the number is neither infinite nor undefined. -/
def isFinite (x : Binary64) : Bool := x.magnitude < infinityPattern

/-- Whether the bits stand for no number at all. -/
def isUndefined (x : Binary64) : Bool := infinityPattern < x.magnitude

/-- The magnitude of a finite number in quanta. -/
def quanta (x : Binary64) : Nat :=
  let field := x.magnitude / pow2 52
  let fraction := x.magnitude % pow2 52
  if field == 0 then fraction else (pow2 52 + fraction) * pow2 (field - 1)

/-- The quotient rounded to the nearest whole number, a half to the even one. -/
def roundHalfEven (num den : Nat) : Nat :=
  let q := num / den
  let r := num % den
  if 2 * r < den then q
  else if den < 2 * r then q + 1
  else q + q % 2

/-- The pattern of the magnitude nearest to a quotient, a half going to the even
pattern. -/
def nearestPattern (num den : Nat) : Nat :=
  let scaled := num * pow2 1074
  let doublings := Nat.log2 (scaled / den) + 1 - 53
  let pattern := doublings * pow2 52 + roundHalfEven scaled (den * pow2 doublings)
  if infinityPattern ≤ pattern then infinityPattern else pattern

/-- A number from its sign and the pattern of its magnitude. -/
def ofPattern (negative : Bool) (pattern : Nat) : Binary64 :=
  ⟨(if negative then pow2 63 + pattern else pattern).toUInt64⟩

/-- The pattern of the magnitude nearest to a decimal. Decimals that are far outside
the range are answered without computing their power of ten. -/
def patternOfDecimal (d : Decimal) : Nat :=
  if d.coefficient == 0 then 0
  else
    let order : Int := Int.ofNat (Decimal.size d.coefficient) + d.exponent
    if 310 < order then infinityPattern
    else if order < -330 then 0
    else
      match d.exponent with
      | .ofNat e => nearestPattern (d.coefficient * pow10 e) 1
      | .negSucc e => nearestPattern d.coefficient (pow10 (e + 1))

/-- The number nearest to a decimal. -/
def ofDecimal (negative : Bool) (d : Decimal) : Binary64 :=
  ofPattern negative (patternOfDecimal d)

end Binary64
end SlotTree

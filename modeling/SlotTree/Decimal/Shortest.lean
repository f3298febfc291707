import SlotTree.Decimal.Binary64
import SlotTree.Text.Blank

/-!
# The fewest digits that read back

A floating-point number is written with as few significant digits as still denote it:
reading the digits gives the number again.  Among the numerals of that length the one
nearest to the exact value is taken, and where two are equally near the format that is
being written decides (`Tie`).

The definition follows this sentence.  The exact value of a finite number is a whole
number of quanta, hence a whole number of units of `10 ^ -1074`, and its decimal
digits are at hand.  For each length from one to seventeen the two numerals of that
length that enclose the value are tried, by reading them back.  Seventeen digits are
always enough; should they not be, the exact digits would be written, so that what is
written reads back whatever is known about seventeen.
-/

namespace SlotTree

/-- Where a value that lies exactly between two numerals goes. -/
inductive Tie where
  | up
  | even
  deriving DecidableEq, Repr

/-- Significant digits with the exponent of the first: `d₀.d₁d₂… * 10 ^ exponent`. -/
structure Digits where
  figures : List Char
  exponent : Int
  deriving DecidableEq, Repr

namespace Digits

/-- The significant digits of a decimal, without the zeros at their end. -/
def ofDecimal (d : Decimal) : Digits :=
  if d.coefficient == 0 then ⟨['0'], 0⟩
  else
    ⟨Text.dropEndWhile (· == '0') (Decimal.digits d.coefficient),
      Int.ofNat (Decimal.size d.coefficient) - 1 + d.exponent⟩

end Digits

namespace Binary64

/-- The exact magnitude of a finite number. -/
def exact (x : Binary64) : Decimal :=
  ⟨x.quanta * Nat.pow 5 1074, -1074⟩

/-- Whether a decimal reads back as the magnitude of the number. -/
def readsAs (x : Binary64) (d : Decimal) : Bool :=
  patternOfDecimal d == x.magnitude

/-- Of two neighbouring numerals the one nearer to a value that lies `excess` above the
lower one, where neighbours are `unit` apart. -/
def nearer (tie : Tie) (excess unit : Nat) (low high : Decimal) : Decimal :=
  if 2 * excess < unit then low
  else if unit < 2 * excess then high
  else
    match tie with
    | .up => high
    | .even => if low.coefficient % 2 == 0 then low else high

/-- The nearer numeral is one of the two. -/
theorem nearer_eq (tie : Tie) (excess unit : Nat) (low high : Decimal) :
    nearer tie excess unit low high = low ∨ nearer tie excess unit low high = high := by
  unfold nearer
  grind

/-- The numeral of `n` significant digits that is written for the number, if one of
the two that enclose its value reads back. -/
def numeral? (tie : Tie) (x : Binary64) (n : Nat) : Option Decimal :=
  let value := x.exact.coefficient
  let cut := Decimal.size value - n
  let unit := pow10 cut
  let low : Decimal := ⟨value / unit, Int.ofNat cut - 1074⟩
  let high : Decimal := ⟨value / unit + 1, Int.ofNat cut - 1074⟩
  if x.readsAs low then
    if x.readsAs high then some (nearer tie (value % unit) unit low high) else some low
  else if x.readsAs high then some high
  else none

/-- A numeral that is found reads back. -/
theorem readsAs_of_numeral? {tie : Tie} {x : Binary64} {n : Nat} {d : Decimal}
    (h : x.numeral? tie n = some d) : x.readsAs d = true := by
  simp only [numeral?] at h
  split at h
  · next hlow =>
    split at h
    · next hhigh =>
      rcases nearer_eq tie _ _ _ _ with hn | hn
      · rw [hn] at h; exact Option.some.inj h ▸ hlow
      · rw [hn] at h; exact Option.some.inj h ▸ hhigh
    · exact Option.some.inj h ▸ hlow
  · split at h
    · next hhigh => exact Option.some.inj h ▸ hhigh
    · exact absurd h (by simp)

/-- The lengths that are tried, in this order. -/
def lengths : List Nat := [1, 2, 3, 4, 5, 6, 7, 8, 9, 10, 11, 12, 13, 14, 15, 16, 17]

/-- The shortest decimal that reads back as the magnitude of a finite number. -/
def shortest (tie : Tie) (x : Binary64) : Decimal :=
  if x.quanta == 0 then ⟨0, 0⟩
  else (lengths.findSome? (x.numeral? tie)).getD x.exact

/-- **What is written reads back**, or it is the exact value. -/
theorem shortest_eq_exact_or_readsAs (tie : Tie) (x : Binary64) (h : x.quanta ≠ 0) :
    x.shortest tie = x.exact ∨ x.readsAs (x.shortest tie) = true := by
  have hq : (x.quanta == 0) = false := by simp [h]
  unfold shortest
  rw [hq]
  cases hf : lengths.findSome? (x.numeral? tie) with
  | none => exact Or.inl rfl
  | some d =>
    obtain ⟨n, -, hn⟩ := List.exists_of_findSome?_eq_some hf
    exact Or.inr (readsAs_of_numeral? hn)

/-- The shortest significant digits of a finite number. -/
def shortestDigits (tie : Tie) (x : Binary64) : Digits :=
  .ofDecimal (x.shortest tie)

end Binary64
end SlotTree

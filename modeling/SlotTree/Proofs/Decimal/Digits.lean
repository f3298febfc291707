import Mathlib.Tactic.Ring
import SlotTree.Decimal.Shortest

/-!
# Rows of digits

The decimal digits of a number denote it again, and that is used in two directions: a
whole number is written by its digits alone, and a floating-point number by the digits of
a coefficient, of which the zeros at the end are dropped and put back by the exponent.

All that is needed of a row of digits is how it behaves under `++`: `ofDigits_append` says
what it denotes, `size_mul_pow10` how its length grows when zeros are appended.
-/

namespace SlotTree
namespace Decimal

/-! ## Digits -/

theorem isDigit_ten_iff {c : Char} : isDigit 10 c = true ↔ 48 ≤ c.toNat ∧ c.toNat ≤ 57 := by
  simp only [isDigit, digitValue]
  grind

/-- Zero is the only digit whose value is zero. -/
theorem digitValue_eq_zero_iff {c : Char} : digitValue c = 0 ↔ c = '0' := by
  constructor
  · intro h
    have hdigit : isDigit 10 c = true := by simp [isDigit, h]
    obtain ⟨hlow, hhigh⟩ := isDigit_ten_iff.mp hdigit
    have hcode : c.toNat = 48 := by
      simp [digitValue, hlow, hhigh] at h
      omega
    exact Char.toNat_inj.mp hcode
  · rintro rfl
    rfl

/-- Nothing that is a digit is an underscore, a sign or the mark of an imaginary number. -/
theorem ne_of_isDigit {radix : Nat} (hradix : radix ≤ 16) {c : Char} (h : isDigit radix c = true) :
    c ≠ '_' ∧ c ≠ '-' ∧ c ≠ '+' ∧ c ≠ 'j' := by
  have hvalue : digitValue c ≠ 16 := by
    rw [isDigit, decide_eq_true_eq] at h
    omega
  refine ⟨?_, ?_, ?_, ?_⟩
  all_goals
    rintro rfl
    exact hvalue (by decide)

theorem digitValue_digitChar {n : Nat} (h : n < 10) : digitValue n.digitChar = n := by
  have hn := Nat.toNat_digitChar_of_lt_ten h
  simp only [digitValue, hn]
  grind

theorem digits_eq_if (n : Nat) :
    digits n = if n < 10 then [n.digitChar] else digits (n / 10) ++ [(n % 10).digitChar] :=
  Nat.toDigits_eq_if (by decide)

theorem digits_ne_nil (n : Nat) : digits n ≠ [] := Nat.toDigits_ne_nil

theorem isDigit_of_mem_digits {n : Nat} {c : Char} (h : c ∈ digits n) : isDigit 10 c = true := by
  have hc := Nat.isDigit_of_mem_toDigits (by decide) (Nat.le_refl 10) h
  rw [isDigit_ten_iff]
  simp only [Char.isDigit, Bool.and_eq_true, decide_eq_true_eq, ge_iff_le] at hc
  exact hc

/-- A row of digits is read as the number that it denotes. -/
theorem readInt?_of_digits {radix : Nat} (hradix : radix ≤ 16) {cs : List Char} (hne : cs ≠ [])
    (h : ∀ c ∈ cs, isDigit radix c = true) :
    readInt? radix cs = some (Int.ofNat (ofDigits radix cs)) := by
  have hsign : splitSign cs = (false, cs) := by
    obtain ⟨c, ds, rfl⟩ := List.exists_cons_of_ne_nil hne
    obtain ⟨-, hminus, hplus, -⟩ := ne_of_isDigit hradix (h c List.mem_cons_self)
    rw [splitSign]
    · exact fun es heq => hminus (List.cons.inj heq).1
    · exact fun es heq => hplus (List.cons.inj heq).1
  have hempty : cs.isEmpty = false := by simpa using hne
  have hall : cs.all (isDigit radix) = true := List.all_eq_true.mpr h
  simp [readInt?, hsign, hempty, hall]

/-! ## What a row of digits denotes -/

@[simp] theorem ofDigits_nil (radix : Nat) : ofDigits radix [] = 0 := rfl

theorem foldl_digits (radix : Nat) (cs : List Char) (n : Nat) :
    cs.foldl (fun n c => n * radix + digitValue c) n =
      n * radix ^ cs.length + ofDigits radix cs := by
  induction cs generalizing n with
  | nil => simp
  | cons c cs ih =>
    have hzero : ofDigits radix (c :: cs) =
        digitValue c * radix ^ cs.length + ofDigits radix cs := by
      rw [ofDigits, List.foldl_cons, ih, Nat.zero_mul, Nat.zero_add]
    rw [List.foldl_cons, ih, hzero, List.length_cons]
    ring

/-- A row of digits behind another one is worth what it is alone. -/
theorem ofDigits_append (radix : Nat) (xs ys : List Char) :
    ofDigits radix (xs ++ ys) = ofDigits radix xs * radix ^ ys.length + ofDigits radix ys := by
  rw [ofDigits, List.foldl_append, foldl_digits]
  rfl

@[simp] theorem ofDigits_singleton (radix : Nat) (c : Char) :
    ofDigits radix [c] = digitValue c := by
  simp [ofDigits]

theorem ofDigits_replicate_zero (radix n : Nat) :
    ofDigits radix (List.replicate n '0') = 0 := by
  induction n with
  | zero => rfl
  | succ n ih =>
    rw [List.replicate_succ', ofDigits_append, ih, ofDigits_singleton, Nat.zero_mul]
    rfl

/-- **The digits of a number denote it.** -/
theorem ofDigits_digits (n : Nat) : ofDigits 10 (digits n) = n := by
  induction n using Nat.strongRecOn with
  | ind n ih =>
    rw [digits_eq_if]
    split
    · next h => rw [ofDigits_singleton, digitValue_digitChar h]
    · next h =>
      rw [ofDigits_append, ih (n / 10) (by omega), ofDigits_singleton,
        digitValue_digitChar (Nat.mod_lt n (by decide)), List.length_singleton]
      omega

/-- The digits of a number start with a zero only if the number is zero. -/
theorem head?_digits_ne_zero {n : Nat} (h : n ≠ 0) : (digits n).head? ≠ some '0' := by
  induction n using Nat.strongRecOn with
  | ind n ih =>
    rw [digits_eq_if]
    split
    · simpa using h
    · next hn =>
      obtain ⟨c, cs, hcs⟩ := List.exists_cons_of_ne_nil (digits_ne_nil (n / 10))
      have hhead := ih (n / 10) (by omega) (by omega)
      rw [hcs] at hhead ⊢
      simpa using hhead

/-! ## How many digits a number has -/

theorem size_pos (n : Nat) : 0 < size n := List.length_pos_iff.mpr (digits_ne_nil n)

theorem size_le_iff {n k : Nat} (hk : 0 < k) : size n ≤ k ↔ n < 10 ^ k :=
  Nat.length_toDigits_le_iff (by decide) hk

/-- A number lies between the powers of ten that its size gives. -/
theorem pow10_le_of_size {n : Nat} (h : n ≠ 0) : 10 ^ (size n - 1) ≤ n := by
  by_contra hlt
  rcases Nat.eq_zero_or_pos (size n - 1) with hzero | hpos
  · rw [hzero] at hlt
    omega
  · have hle := (size_le_iff hpos).mpr (Nat.not_le.mp hlt)
    omega

theorem lt_pow10_size (n : Nat) : n < 10 ^ size n := (size_le_iff (size_pos n)).mp (Nat.le_refl _)

/-- The size of a number is the one exponent with the number between two powers of ten. -/
theorem size_eq_of_between {n k : Nat} (hlow : 10 ^ k ≤ n) (hhigh : n < 10 ^ (k + 1)) :
    size n = k + 1 := by
  have hn : n ≠ 0 := Nat.ne_of_gt (Nat.lt_of_lt_of_le (Nat.pow_pos (by decide)) hlow)
  have hle := (size_le_iff (Nat.succ_pos k)).mpr hhigh
  have hlt : 10 ^ k < 10 ^ size n := Nat.lt_of_le_of_lt hlow (lt_pow10_size n)
  have hk := (Nat.pow_lt_pow_iff_right (by decide)).mp hlt
  omega

/-- Zeros at the end count. -/
theorem size_mul_pow10 {n : Nat} (h : n ≠ 0) (k : Nat) : size (n * 10 ^ k) = size n + k := by
  have hpos := size_pos n
  have hlow : 10 ^ (size n - 1 + k) ≤ n * 10 ^ k := by
    rw [Nat.pow_add]
    exact Nat.mul_le_mul_right _ (pow10_le_of_size h)
  have hhigh : n * 10 ^ k < 10 ^ (size n - 1 + k + 1) := by
    have hsplit : 10 ^ (size n - 1 + k + 1) = 10 ^ size n * 10 ^ k := by
      rw [← Nat.pow_add]
      congr 1
      omega
    rw [hsplit]
    exact (Nat.mul_lt_mul_right (Nat.pow_pos (by decide))).mpr (lt_pow10_size n)
  rw [size_eq_of_between hlow hhigh]
  omega

end Decimal
end SlotTree

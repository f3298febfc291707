import SlotTree.Proofs.Decimal.Digits

/-!
# Rounding to the nearest pattern

Two facts about `patternOfDecimal` carry everything that is said about floating-point
literals.  It depends on the value of a decimal only, not on how the value is split into
a coefficient and a power of ten (`patternOfDecimal_shift`); and the exact value of a
finite number is rounded to the pattern of that number (`patternOfDecimal_exact`).

For the second one the significand and the number of doublings have to be found again
from the quanta.  A subnormal number is not doubled at all, and a normal one has a
significand of exactly 53 bits, so in both cases the number of bits of the quanta tells
how often they were doubled.
-/

namespace SlotTree
namespace Binary64

theorem pow2_eq (n : Nat) : pow2 n = 2 ^ n := rfl

theorem pow10_eq (n : Nat) : pow10 n = 10 ^ n := rfl

theorem pow2_pos (n : Nat) : 0 < pow2 n := Nat.pow_pos (by decide)

/-! ## A quotient and its multiples -/

theorem roundHalfEven_mul {k : Nat} (hk : 0 < k) (num den : Nat) :
    roundHalfEven (num * k) (den * k) = roundHalfEven num den := by
  have hbelow : 2 * (num % den * k) < den * k ↔ 2 * (num % den) < den := by
    rw [← Nat.mul_assoc]
    exact Nat.mul_lt_mul_right hk
  have habove : den * k < 2 * (num % den * k) ↔ den < 2 * (num % den) := by
    rw [← Nat.mul_assoc]
    exact Nat.mul_lt_mul_right hk
  simp only [roundHalfEven, Nat.mul_div_mul_right num den hk, Nat.mul_mod_mul_right, hbelow,
    habove]

/-- A whole quotient is not rounded. -/
theorem roundHalfEven_of_dvd {den : Nat} (hden : 0 < den) (q : Nat) :
    roundHalfEven (q * den) den = q := by
  simp only [roundHalfEven, Nat.mul_div_cancel q hden, Nat.mul_mod_left, Nat.mul_zero, hden,
    if_true]

theorem nearestPattern_mul {k : Nat} (hk : 0 < k) (num den : Nat) :
    nearestPattern (num * k) (den * k) = nearestPattern num den := by
  have hscaled : num * k * pow2 1074 = num * pow2 1074 * k := Nat.mul_right_comm _ _ _
  have hden (n : Nat) : den * k * pow2 n = den * pow2 n * k := Nat.mul_right_comm _ _ _
  simp only [nearestPattern, hscaled, hden, Nat.mul_div_mul_right _ den hk, roundHalfEven_mul hk]

/-- The pattern depends on the quotient only. -/
theorem nearestPattern_eq_of_mul_eq {a b c d : Nat} (hb : 0 < b) (hd : 0 < d)
    (h : a * d = c * b) : nearestPattern a b = nearestPattern c d := by
  rw [← nearestPattern_mul hd a b, ← nearestPattern_mul hb c d, h, Nat.mul_comm b d]

/-! ## The value of a decimal -/

/-- The exponent of the digit before the first one of a decimal. -/
def orderOf (d : Decimal) : Int := Int.ofNat (Decimal.size d.coefficient) + d.exponent

/-- Within the range a decimal is rounded as the quotient that it is. -/
theorem patternOfDecimal_eq {d : Decimal} (h : d.coefficient ≠ 0) :
    patternOfDecimal d =
      if 310 < orderOf d then infinityPattern
      else if orderOf d < -330 then 0
      else nearestPattern (d.coefficient * 10 ^ d.exponent.toNat) (10 ^ (-d.exponent).toNat) := by
  obtain ⟨c, e⟩ := d
  have hc : (c == 0) = false := by simpa using h
  rw [patternOfDecimal, hc]
  cases e with
  | ofNat e =>
    have hneg : (-Int.ofNat e).toNat = 0 := by simp
    have hpos : (Int.ofNat e).toNat = e := rfl
    simp only [orderOf, hneg, hpos, Nat.pow_zero, pow10_eq, Bool.false_eq_true, if_false]
  | negSucc e =>
    have hneg : (-Int.negSucc e).toNat = e + 1 := rfl
    have hpos : (Int.negSucc e).toNat = 0 := rfl
    simp only [orderOf, hneg, hpos, Nat.pow_zero, Nat.mul_one, pow10_eq, Bool.false_eq_true,
      if_false]

@[simp] theorem patternOfDecimal_zero (e : Int) : patternOfDecimal ⟨0, e⟩ = 0 := by
  simp [patternOfDecimal]

theorem pow10_pos (n : Nat) : 0 < 10 ^ n := Nat.pow_pos (by decide)

/-- **Zeros at the end of the coefficient are worth as much as a greater exponent.** -/
theorem patternOfDecimal_shift (c : Nat) (e : Int) (k : Nat) :
    patternOfDecimal ⟨c * 10 ^ k, e - k⟩ = patternOfDecimal ⟨c, e⟩ := by
  rcases Nat.eq_zero_or_pos c with rfl | hc
  · rw [Nat.zero_mul, patternOfDecimal_zero, patternOfDecimal_zero]
  have hc' : c * 10 ^ k ≠ 0 := Nat.ne_of_gt (Nat.mul_pos hc (pow10_pos k))
  have horder : orderOf ⟨c * 10 ^ k, e - k⟩ = orderOf ⟨c, e⟩ := by
    simp only [orderOf, Decimal.size_mul_pow10 (Nat.ne_of_gt hc), Int.ofNat_eq_natCast,
      Nat.cast_add]
    omega
  have hvalue : nearestPattern (c * 10 ^ k * 10 ^ (e - k).toNat) (10 ^ (-(e - k)).toNat) =
      nearestPattern (c * 10 ^ e.toNat) (10 ^ (-e).toNat) := by
    refine nearestPattern_eq_of_mul_eq (pow10_pos _) (pow10_pos _) ?_
    have hexp : k + (e - k).toNat + (-e).toNat = e.toNat + (-(e - k)).toNat := by omega
    calc c * 10 ^ k * 10 ^ (e - k).toNat * 10 ^ (-e).toNat
        = c * 10 ^ (k + (e - k).toNat + (-e).toNat) := by
          rw [Nat.pow_add, Nat.pow_add]
          ring
      _ = c * 10 ^ (e.toNat + (-(e - k)).toNat) := by rw [hexp]
      _ = c * 10 ^ e.toNat * 10 ^ (-(e - k)).toNat := by
          rw [Nat.pow_add]
          ring
  rw [patternOfDecimal_eq hc', patternOfDecimal_eq (Nat.ne_of_gt hc), horder]
  simp only [hvalue]

/-! ## The exact value -/

/-- Quanta that are a significand doubled so often are rounded to its pattern. -/
theorem nearestPattern_quanta {m k : Nat} (hm : m < 2 ^ 53) (hk : k = 0 ∨ 2 ^ 52 ≤ m)
    (hfinite : k * 2 ^ 52 + m < infinityPattern) :
    nearestPattern (m * 2 ^ k) (pow2 1074) = k * 2 ^ 52 + m := by
  have hdoublings : Nat.log2 (m * 2 ^ k) + 1 - 53 = k := by
    rcases Nat.eq_zero_or_pos m with rfl | hm'
    · have hk' : k = 0 := by omega
      simp [hk']
    have hlow := Nat.log2_self_le (Nat.ne_of_gt hm')
    have hhigh := Nat.lt_log2_self (n := m)
    have hlog : Nat.log2 (m * 2 ^ k) = Nat.log2 m + k := by
      have hne : m * 2 ^ k ≠ 0 := Nat.ne_of_gt (Nat.mul_pos hm' (Nat.pow_pos (by decide)))
      refine (Nat.log2_eq_iff hne).mpr ⟨?_, ?_⟩
      · rw [Nat.pow_add]
        exact Nat.mul_le_mul_right _ hlow
      · rw [Nat.add_right_comm, Nat.pow_add]
        exact (Nat.mul_lt_mul_right (Nat.pow_pos (by decide))).mpr hhigh
    have hbits : Nat.log2 m < 53 := (Nat.log2_lt (Nat.ne_of_gt hm')).mpr hm
    rcases hk with rfl | hk
    · omega
    · have hfull : 52 ≤ Nat.log2 m := (Nat.le_log2 (Nat.ne_of_gt hm')).mpr hk
      omega
  have hquotient : m * 2 ^ k * pow2 1074 / pow2 1074 = m * 2 ^ k :=
    Nat.mul_div_cancel _ (pow2_pos 1074)
  have hround : roundHalfEven (m * 2 ^ k * pow2 1074) (pow2 1074 * pow2 k) = m := by
    have hscaled : m * 2 ^ k * pow2 1074 = m * (pow2 1074 * pow2 k) := by
      rw [pow2_eq k]
      ring
    rw [hscaled]
    exact roundHalfEven_of_dvd (Nat.mul_pos (pow2_pos 1074) (pow2_pos k)) m
  simp only [nearestPattern, hquotient, hdoublings, hround, pow2_eq 52]
  exact if_neg (Nat.not_le.mpr hfinite)

/-- A finite number is a significand of at most 53 bits, doubled so often that its pattern
is the magnitude. Only a significand of exactly 53 bits is doubled at all. -/
theorem exists_significand {x : Binary64} (h : x.isFinite = true) :
    ∃ m k, x.quanta = m * 2 ^ k ∧ m < 2 ^ 53 ∧ (k = 0 ∨ 2 ^ 52 ≤ m) ∧ k ≤ 2045 ∧
      k * 2 ^ 52 + m = x.magnitude := by
  have hlt : x.magnitude < 2047 * 2 ^ 52 := of_decide_eq_true h
  have hfraction : x.magnitude % 2 ^ 52 < 2 ^ 52 := Nat.mod_lt _ (by decide)
  have hsplit := Nat.div_add_mod x.magnitude (2 ^ 52)
  have hfield : x.magnitude / 2 ^ 52 < 2047 := Nat.div_lt_of_lt_mul (by rwa [Nat.mul_comm])
  rcases hzero : x.magnitude / 2 ^ 52 with _ | field
  · have hquanta : x.quanta = x.magnitude % 2 ^ 52 := by
      simp only [quanta, pow2_eq, hzero]
      exact if_pos rfl
    rw [hzero, Nat.mul_zero, Nat.zero_add] at hsplit
    refine ⟨x.magnitude % 2 ^ 52, 0, ?_, by omega, Or.inl rfl, by omega, ?_⟩
    · rw [hquanta, Nat.pow_zero, Nat.mul_one]
    · rw [Nat.zero_mul, Nat.zero_add, hsplit]
  · have hquanta : x.quanta = (2 ^ 52 + x.magnitude % 2 ^ 52) * 2 ^ field := by
      simp only [quanta, pow2_eq, hzero]
      exact if_neg (by simp)
    rw [hzero] at hsplit hfield
    refine ⟨2 ^ 52 + x.magnitude % 2 ^ 52, field, hquanta, ?_, Or.inr (Nat.le_add_right _ _),
      by omega, ?_⟩
    · calc 2 ^ 52 + x.magnitude % 2 ^ 52 < 2 ^ 52 + 2 ^ 52 := Nat.add_lt_add_left hfraction _
        _ = 2 ^ 53 := by decide
    · calc field * 2 ^ 52 + (2 ^ 52 + x.magnitude % 2 ^ 52)
          = 2 ^ 52 * (field + 1) + x.magnitude % 2 ^ 52 := by ring
        _ = x.magnitude := hsplit

/-- Units of `10 ^ -n` are quanta of `2 ^ -n` times a power of five. -/
theorem nearestPattern_fives (q n : Nat) :
    nearestPattern (q * Nat.pow 5 n) (10 ^ n) = nearestPattern q (pow2 n) := by
  refine nearestPattern_eq_of_mul_eq (pow10_pos n) (pow2_pos n) ?_
  show q * 5 ^ n * 2 ^ n = q * 10 ^ n
  rw [Nat.mul_assoc, ← Nat.mul_pow]

theorem mul_fives_ne_zero {q : Nat} (hq : q ≠ 0) (n : Nat) : q * Nat.pow 5 n ≠ 0 :=
  Nat.mul_ne_zero hq (Nat.ne_of_gt (Nat.pow_pos (by decide)))

theorem mul_pow2_le {m k a b : Nat} (hm : m ≤ 2 ^ a) (hk : k ≤ b) : m * 2 ^ k ≤ 2 ^ (a + b) := by
  rw [Nat.pow_add]
  exact Nat.mul_le_mul hm (Nat.pow_le_pow_right (by decide) hk)

theorem fives_lt : 2 ^ (53 + 2045) * Nat.pow 5 1074 < 10 ^ 1384 := by decide +kernel

theorem le_fives : 10 ^ 744 ≤ Nat.pow 5 1074 := by decide +kernel

/-- The exact value of a finite number is within the range of decimals that are
rounded. -/
theorem orderOf_exact {x : Binary64} (h : x.isFinite = true) (hq : x.quanta ≠ 0) :
    ¬ 310 < orderOf x.exact ∧ ¬ orderOf x.exact < -330 := by
  obtain ⟨m, k, hquanta, hm, -, hk, -⟩ := exists_significand h
  have hupper : x.quanta * Nat.pow 5 1074 < 10 ^ 1384 := by
    refine Nat.lt_of_le_of_lt (Nat.mul_le_mul_right _ ?_) fives_lt
    rw [hquanta]
    exact mul_pow2_le (Nat.le_of_lt hm) hk
  have hlower : 10 ^ 744 ≤ x.quanta * Nat.pow 5 1074 :=
    Nat.le_trans le_fives (Nat.le_mul_of_pos_left _ (Nat.pos_of_ne_zero hq))
  have hsize : Decimal.size (x.quanta * Nat.pow 5 1074) ≤ 1384 :=
    (Decimal.size_le_iff (by decide)).mpr hupper
  have hsize' : ¬ Decimal.size (x.quanta * Nat.pow 5 1074) ≤ 744 := by
    rw [Decimal.size_le_iff (by decide)]
    exact Nat.not_lt.mpr hlower
  simp only [orderOf, exact, Int.ofNat_eq_natCast]
  omega

/-- **The exact value of a finite number is rounded to that number.** -/
theorem patternOfDecimal_exact {x : Binary64} (h : x.isFinite = true) (hq : x.quanta ≠ 0) :
    patternOfDecimal x.exact = x.magnitude := by
  obtain ⟨m, k, hquanta, hm, hk, -, hmagnitude⟩ := exists_significand h
  obtain ⟨hhigh, hlow⟩ := orderOf_exact h hq
  have hcoefficient : x.exact.coefficient ≠ 0 := mul_fives_ne_zero hq 1074
  have hexact : x.exact.coefficient * 10 ^ x.exact.exponent.toNat =
      m * 2 ^ k * Nat.pow 5 1074 := by
    rw [← hquanta]
    exact Nat.mul_one _
  have hfinite : k * 2 ^ 52 + m < infinityPattern := by
    rw [hmagnitude]
    exact of_decide_eq_true h
  rw [patternOfDecimal_eq hcoefficient, if_neg hhigh, if_neg hlow, hexact, ← hmagnitude,
    ← nearestPattern_quanta hm hk hfinite]
  exact nearestPattern_fives _ 1074

theorem quanta_eq_zero_iff {x : Binary64} (h : x.isFinite = true) :
    x.quanta = 0 ↔ x.magnitude = 0 := by
  obtain ⟨m, k, hquanta, -, hk, -, hmagnitude⟩ := exists_significand h
  rw [hquanta, ← hmagnitude]
  constructor
  · intro hzero
    rcases Nat.mul_eq_zero.mp hzero with rfl | hpow
    · omega
    · exact absurd hpow (Nat.ne_of_gt (Nat.pow_pos (by decide)))
  · intro hzero
    have hm : m = 0 := by omega
    rw [hm, Nat.zero_mul]

/-- **The shortest decimal of a finite number reads back as its magnitude.** -/
theorem patternOfDecimal_shortest (tie : Tie) {x : Binary64} (h : x.isFinite = true) :
    patternOfDecimal (x.shortest tie) = x.magnitude := by
  by_cases hq : x.quanta = 0
  · have hmagnitude := (quanta_eq_zero_iff h).mp hq
    have hshortest : x.shortest tie = ⟨0, 0⟩ := by simp [shortest, hq]
    rw [hshortest, hmagnitude, patternOfDecimal_zero]
  · rcases shortest_eq_exact_or_readsAs tie x hq with hexact | hreads
    · rw [hexact]
      exact patternOfDecimal_exact h hq
    · simpa [readsAs] using hreads

/-- A finite number without a sign is the number of its magnitude. -/
theorem ofPattern_magnitude {x : Binary64} (h : x.isNegative = false) :
    ofPattern false x.magnitude = x := by
  have hlt : x.bits.toNat < 2 ^ 63 := Nat.not_le.mp (of_decide_eq_false h)
  have hmagnitude : x.magnitude = x.bits.toNat := Nat.mod_eq_of_lt hlt
  rw [hmagnitude]
  obtain ⟨bits⟩ := x
  simp [ofPattern]

end Binary64
end SlotTree

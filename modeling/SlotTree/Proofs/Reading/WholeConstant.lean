import Mathlib.Data.Nat.Digits.Defs
import SlotTree.Proofs.Reading.Steps
import SlotTree.Proofs.Token.Scanned

/-!
# Whole numbers as constants

A whole number may be written in four radices, with letters in either case and with underscores
between its digits.  What it denotes is plain (`Number.magnitude`): leave out the underscores and
what announces the radix, and take the rest as a row of digits.  The reader goes another way.  It
puts the whole text into lower case and drops the underscores before it looks for a radix, tells
other numbers by the letters in them, and checks the range last.

On a text that is a whole number (`Number.IsWhole`) both ways lead to the same number.  The text is
a row of digits behind the letter of a radix, or it is a row of decimal digits, and no letter in it
can be taken for anything else (`Number.IsWhole.cases`).  So the constant has the value of its text,
unless the value has more than 63 bits or a decimal text has a zero in front for no reason, and in
these cases the text is refused as it stands (`Reading.constant_whole`).
-/

namespace SlotTree

/-! ## Rows of digits in any radix -/

namespace Decimal

/-- A row of digits denotes the sum of its digits, each times the power of the radix that belongs
to its place. -/
theorem ofDigits_eq (radix : Nat) (cs : List Char) :
    ofDigits radix cs = Nat.ofDigits radix (cs.map digitValue).reverse := by
  induction cs with
  | nil => rfl
  | cons c cs ih =>
    rw [← List.singleton_append, ofDigits_append, ofDigits_singleton, ih, List.map_append,
      List.reverse_append, Nat.ofDigits_append, List.length_reverse, List.length_map]
    simp [Nat.add_comm, Nat.mul_comm]

theorem ofDigits_map (radix : Nat) {f : Char → Char} (h : ∀ c, digitValue (f c) = digitValue c)
    (cs : List Char) : ofDigits radix (cs.map f) = ofDigits radix cs := by
  have hvalues : (cs.map f).map digitValue = cs.map digitValue := by simp [h]
  rw [ofDigits_eq, ofDigits_eq, hvalues]

end Decimal

namespace Number

open Decimal (digitValue isDigit ne_of_isDigit)
open Text (lowerChar lowerChar_of_isDigit)

/-- Digits have the same value in either case. -/
theorem digitValue_lowerChar (c : Char) : digitValue (lowerChar c) = digitValue c := by
  unfold lowerChar
  split
  · next hcapital =>
    simp only [Bool.and_eq_true, decide_eq_true_eq] at hcapital
    have hall : ∀ n ∈ List.range 26,
        digitValue (Char.ofNat (65 + n + 32)) = digitValue (Char.ofNat (65 + n)) := by decide
    have hcode := hall (c.toNat - 65) (List.mem_range.mpr (by omega))
    rwa [Nat.add_sub_cancel' hcapital.1, Char.ofNat_toNat] at hcode
  · rfl

/-- A number that is not negative has 64 bits if it has 63. -/
theorem wholeNumber?_ofNat (n : Nat) :
    wholeNumber? (Int.ofNat n) = if n < 2 ^ 63 then some (.int (Int64.ofNat n)) else none := by
  have hbounds : (-9223372036854775808 ≤ Int.ofNat n && Int.ofNat n ≤ 9223372036854775807) =
      decide (n < 2 ^ 63) := by
    rw [Bool.eq_iff_iff, Bool.and_eq_true, decide_eq_true_eq, decide_eq_true_eq, decide_eq_true_eq,
      Int.ofNat_eq_natCast]
    omega
  rw [wholeNumber?, hbounds]
  simp only [decide_eq_true_eq]
  rfl

/-! ## The text of a whole number -/

/-- The radix in which a text is written: ten, unless a letter behind a zero announces another. -/
def radix : List Char → Nat
  | '0' :: c :: _ => (Lexeme.radixOf? c).getD 10
  | _ => 10

/-- The digits of a text, without what announces the radix and without underscores. -/
def figures (text : List Char) : List Char :=
  (if radix text = 10 then text else text.drop 2).filter fun c => c != '_'

/-- The number that the digits of a text denote. -/
def magnitude (text : List Char) : Nat :=
  Nat.ofDigits (radix text) ((figures text).map digitValue).reverse

/-- The text is a number as a whole, and neither an imaginary nor a floating-point number. -/
structure IsWhole (text : List Char) : Prop where
  nonempty : text ≠ []
  number : Lexeme.leadingNumber text = text
  real : ∀ c ∈ text.getLast?, c ≠ 'j' ∧ c ≠ 'J'
  pointless : '.' ∉ text
  plain : radix text ≠ 16 → 'e' ∉ text ∧ 'E' ∉ text

/-- A decimal text that starts with a zero and has another digit in it. -/
def IsPadded (text : List Char) : Prop :=
  radix text = 10 ∧ text.head? = some '0' ∧ ∃ c ∈ figures text, digitValue c ≠ 0

/-- What a letter announces, and how it is read. -/
theorem of_radixOf? {c : Char} {r : Nat} (h : Lexeme.radixOf? c = some r) :
    (c != '_') = true ∧ r ≠ 10 ∧ r ≤ 16 ∧ lowerChar c ≠ 'j' ∧
      ∀ ds, splitRadix? ('0' :: lowerChar c :: ds) = some (r, ds) := by
  have hletter : c ∈ ['x', 'X', 'o', 'O', 'b', 'B'] := by
    unfold Lexeme.radixOf? at h
    grind
  simp only [List.mem_cons, List.not_mem_nil, or_false] at hletter
  rcases hletter with rfl | rfl | rfl | rfl | rfl | rfl
  all_goals
    obtain rfl := Option.some.inj h
    exact ⟨by decide, by decide, by decide, by decide, fun ds => rfl⟩

/-- A run of digits is empty or has a digit in it. -/
theorem exists_digit_mem_digitRun (isDigit : Char → Bool) (cs : List Char) :
    Lexeme.digitRun isDigit cs = [] ∨ ∃ c ∈ Lexeme.digitRun isDigit cs, isDigit c = true := by
  fun_cases Lexeme.digitRun isDigit cs with
  | case2 c cs hc => exact Or.inr ⟨c, List.mem_cons_self, hc⟩
  | case3 c _ _ d ds hd => exact Or.inr ⟨d, by simp, hd⟩
  | case1 | case4 | case5 | case6 => exact Or.inl rfl

/-- Without its underscores a run of digits is a row of digits. -/
theorem filter_digitRun {r : Nat} (hr : r ≤ 16) {ds : List Char} (hne : ds ≠ [])
    (h : Lexeme.digitRun (isDigit r) ds = ds) :
    ds.filter (fun c => c != '_') ≠ [] ∧
      ∀ c ∈ ds.filter (fun c => c != '_'), isDigit r c = true := by
  constructor
  · rcases exists_digit_mem_digitRun (isDigit r) ds with hnil | ⟨c, hmem, hc⟩
    · exact absurd (h.symm.trans hnil) hne
    · rw [h] at hmem
      have hplain : (c != '_') = true := by simpa using (ne_of_isDigit hr hc).1
      exact List.ne_nil_of_mem (List.mem_filter.mpr ⟨hmem, hplain⟩)
  · intro c hc
    obtain ⟨hmem, hplain⟩ := List.mem_filter.mp hc
    rw [← h] at hmem
    rcases Lexeme.mem_digitRun hmem with hdigit | rfl
    · exact hdigit
    · cases hplain

/-- The letter of no other radix stands in a decimal text. -/
theorem radix_of_isDecimalChar {text : List Char} (h : ∀ c ∈ text, isDecimalChar c = true) :
    radix text = 10 := by
  unfold radix
  split
  · next c ds =>
    have hnone : Lexeme.radixOf? c = none := by
      obtain ⟨hx, ho, hb⟩ := lowerChar_of_isDecimalChar (h c (by simp))
      unfold Lexeme.radixOf?
      split_ifs with h₁ h₂ h₃
      · rcases (by simpa using h₁ : c = 'x' ∨ c = 'X') with rfl | rfl <;> exact absurd rfl hx
      · rcases (by simpa using h₂ : c = 'o' ∨ c = 'O') with rfl | rfl <;> exact absurd rfl ho
      · rcases (by simpa using h₃ : c = 'b' ∨ c = 'B') with rfl | rfl <;> exact absurd rfl hb
      · rfl
    rw [hnone]
    rfl
  · rfl

theorem point_mem_leadingPoint {cs : List Char} (h : Lexeme.leadingPoint cs ≠ []) :
    '.' ∈ Lexeme.leadingPoint cs := by
  unfold Lexeme.leadingPoint at h ⊢
  simp only at h ⊢
  split at h
  · split at h
    · exact absurd rfl h
    · next rest hdrop hsome => simp [hsome, Lexeme.withSuffixes]
  · exact absurd rfl h

/-- An exponent has its letter in it. -/
theorem letter_mem_leadingExponent (cs : List Char) :
    Lexeme.leadingExponent cs = [] ∨ 'e' ∈ Lexeme.leadingExponent cs ∨
      'E' ∈ Lexeme.leadingExponent cs := by
  unfold Lexeme.leadingExponent
  split
  · next c ds =>
    split
    · next hletter =>
      have hmem : ∀ tail, 'e' ∈ c :: tail ∨ 'E' ∈ c :: tail := by
        intro tail
        rcases (by simpa using hletter : c = 'e' ∨ c = 'E') with rfl | rfl <;> simp
      split
      · split
        · split
          · exact Or.inl rfl
          · exact Or.inr (hmem _)
        · split
          · exact Or.inl rfl
          · exact Or.inr (hmem _)
      · exact Or.inl rfl
    · exact Or.inl rfl
  · exact Or.inl rfl

theorem leadingImaginary_cases (cs : List Char) :
    Lexeme.leadingImaginary cs = [] ∨ Lexeme.leadingImaginary cs = ['j'] ∨
      Lexeme.leadingImaginary cs = ['J'] := by
  unfold Lexeme.leadingImaginary
  split
  · next c _ =>
    split
    · next hmark =>
      rcases (by simpa using hmark : c = 'j' ∨ c = 'J') with rfl | rfl <;> simp
    · exact Or.inl rfl
  · exact Or.inl rfl

/-- A decimal number without an exponent and an imaginary mark is a run of digits. -/
theorem IsWhole.decimalRun_eq {text : List Char} (h : IsWhole text) (hradix : radix text = 10)
    (hwhole : Lexeme.leadingWhole text = text) : Lexeme.decimalRun text = text := by
  unfold Lexeme.leadingWhole at hwhole
  simp only at hwhole
  split at hwhole
  · exact absurd hwhole.symm h.nonempty
  · simp only [Lexeme.withSuffixes] at hwhole
    generalize Lexeme.decimalRun text = whole at hwhole ⊢
    generalize text.drop whole.length = behind at hwhole
    have hexponent : Lexeme.leadingExponent behind = [] := by
      obtain ⟨hsmall, hcapital⟩ := h.plain (by rw [hradix]; decide)
      rcases letter_mem_leadingExponent behind with hnil | hmem | hmem
      · exact hnil
      · exact absurd (by rw [← hwhole]; simp [hmem]) hsmall
      · exact absurd (by rw [← hwhole]; simp [hmem]) hcapital
    rw [hexponent, List.append_nil, List.length_nil, Nat.add_zero] at hwhole
    rcases leadingImaginary_cases (text.drop whole.length) with hnil | hmark | hmark
    · rwa [hnil, List.append_nil] at hwhole
    · rw [hmark] at hwhole
      exact absurd rfl (h.real 'j' (by rw [← hwhole]; simp)).1
    · rw [hmark] at hwhole
      exact absurd rfl (h.real 'J' (by rw [← hwhole]; simp)).2

/-- A number in another radix is a run of its digits behind a zero and a letter. -/
theorem exists_eq_of_leadingRadix {text : List Char} (hne : Lexeme.leadingRadix text ≠ [])
    (h : Lexeme.leadingRadix text = text) :
    ∃ c r ds, text = '0' :: c :: ds ∧ Lexeme.radixOf? c = some r ∧ ds ≠ [] ∧
      Lexeme.digitRun (isDigit r) ds = ds := by
  rw [h] at hne
  unfold Lexeme.leadingRadix at h
  split at h
  · next c ds =>
    split at h
    · next r hr =>
      simp only at h
      split at h
      · cases h
      · next hsome =>
        have hds : Lexeme.digitRun (isDigit r) ds = ds := (List.cons.inj (List.cons.inj h).2).2
        exact ⟨c, r, ds, rfl, hr, by simpa [hds] using hsome, hds⟩
    · cases h
  · exact absurd h.symm hne

/-- **A whole number is a row of digits behind the letter of a radix, or a row of decimal
digits.** -/
theorem IsWhole.cases {text : List Char} (h : IsWhole text) :
    (∃ c r ds, text = '0' :: c :: ds ∧ Lexeme.radixOf? c = some r ∧ ds ≠ [] ∧
      Lexeme.digitRun (isDigit r) ds = ds) ∨
    (radix text = 10 ∧ Lexeme.decimalRun text = text) := by
  have hnumber := h.number
  unfold Lexeme.leadingNumber at hnumber
  split at hnumber
  · next hradix => exact Or.inl (exists_eq_of_leadingRadix (by simpa using hradix) hnumber)
  · split at hnumber
    · next hpoint =>
      have hmem := point_mem_leadingPoint (by simpa using hpoint)
      rw [hnumber] at hmem
      exact absurd hmem h.pointless
    · have hchars := Lexeme.unsigned_leadingWhole (hnumber.symm ▸ h.nonempty)
      rw [hnumber] at hchars
      have hradix := radix_of_isDecimalChar hchars.chars
      exact Or.inr ⟨hradix, h.decimalRun_eq hradix hnumber⟩

/-! ## Its value -/

/-- Behind the letter of a radix a row of digits is read in that radix. -/
theorem value?_radix {c : Char} {r : Nat} (hr : Lexeme.radixOf? c = some r) {ds : List Char}
    (hne : ds ≠ []) (h : ∀ d ∈ ds, isDigit r d = true) :
    value? ('0' :: lowerChar c :: ds) = wholeNumber? (Int.ofNat (Decimal.ofDigits r ds)) := by
  obtain ⟨-, -, hle, -, hsplit⟩ := of_radixOf? hr
  rw [value?, hsplit]
  simp only
  rw [Decimal.readInt?_of_digits hle hne h, Option.bind_some]

instance (text : List Char) : Decidable (IsPadded text) :=
  decidable_of_iff (radix text = 10 ∧ text.head? = some '0' ∧
    ((figures text).any fun c => digitValue c != 0) = true) (by simp [IsPadded])

/-- A text behind the letter of a radix, in normal form. -/
theorem normalise_radix {c : Char} {r : Nat} (hr : Lexeme.radixOf? c = some r) (ds : List Char) :
    radix ('0' :: c :: ds) = r ∧ figures ('0' :: c :: ds) = ds.filter (fun d => d != '_') ∧
      normalise ('0' :: c :: ds) =
        '0' :: lowerChar c :: (figures ('0' :: c :: ds)).map lowerChar := by
  obtain ⟨hplain, hten, -, -, -⟩ := of_radixOf? hr
  have hradix : radix ('0' :: c :: ds) = r := by simp [radix, hr]
  have hfigures : figures ('0' :: c :: ds) = ds.filter (fun d => d != '_') := by
    simp [figures, hradix, hten]
  refine ⟨hradix, hfigures, ?_⟩
  simp [hfigures, normalise, (of_radixOf? hr).1, show lowerChar '0' = '0' from rfl]

/-- The digits of a decimal text are its normal form. -/
theorem normalise_decimal {text : List Char} (hne : text ≠ []) (hradix : radix text = 10)
    (hrun : Lexeme.decimalRun text = text) :
    DigitRow (figures text) ∧ (figures text).head? = text.head? ∧
      normalise text = figures text := by
  obtain ⟨c, ds, rfl⟩ := List.exists_cons_of_ne_nil hne
  rw [Lexeme.decimalRun] at hrun
  split at hrun
  case isFalse => cases hrun
  next hc =>
  have hplain : (c != '_') = true := by simpa using (ne_of_isDigit (by decide) hc).1
  have hfigures : figures (c :: ds) = c :: ds.filter (fun d => d != '_') := by
    simp [figures, hradix, hplain]
  have hdigits : ∀ d ∈ figures (c :: ds), isDigit 10 d = true := by
    intro d hd
    rcases List.mem_cons.mp (hfigures ▸ hd) with rfl | hmem
    · exact hc
    · exact (filter_digitRun (by decide) (List.ne_nil_of_mem (List.mem_filter.mp hmem).1)
        (List.cons.inj hrun).2).2 d hmem
  refine ⟨⟨by simp [hfigures], hdigits⟩, by simp [hfigures], ?_⟩
  calc normalise (c :: ds)
      = (figures (c :: ds)).map lowerChar := by simp [normalise, figures, hradix]
    _ = (figures (c :: ds)).map id :=
        List.map_congr_left fun d hd => lowerChar_of_isDigit (hdigits d hd)
    _ = figures (c :: ds) := List.map_id _

/-- The mark of an imaginary number is not in the normal form, and what is read is the number that
the digits denote. -/
theorem IsWhole.value?_normalise {text : List Char} (h : IsWhole text) :
    'j' ∉ normalise text ∧ value? (normalise text) =
      if IsPadded text then none else wholeNumber? (Int.ofNat (magnitude text)) := by
  rcases h.cases with ⟨c, r, ds, rfl, hr, hne, hrun⟩ | ⟨hradix, hrun⟩
  · obtain ⟨hradix, hfigures, hnormal⟩ := normalise_radix hr ds
    obtain ⟨-, hten, hle, hmark, -⟩ := of_radixOf? hr
    obtain ⟨hsome, hdigits⟩ := hfigures ▸ filter_digitRun hle hne hrun
    have hlower : ∀ d ∈ (figures ('0' :: c :: ds)).map lowerChar, isDigit r d = true := by
      intro d hd
      obtain ⟨e, he, rfl⟩ := List.mem_map.mp hd
      rw [isDigit, digitValue_lowerChar]
      exact hdigits e he
    have hunpadded : ¬ IsPadded ('0' :: c :: ds) := fun hp => hten (hradix ▸ hp.1)
    rw [hnormal, if_neg hunpadded, magnitude, hradix, ← Decimal.ofDigits_eq]
    constructor
    · intro hmem
      rcases List.mem_cons.mp hmem with hzero | hmem
      · cases hzero
      · rcases List.mem_cons.mp hmem with hletter | hmem
        · exact hmark hletter.symm
        · exact (ne_of_isDigit hle (hlower 'j' hmem)).2.2.2 rfl
    · rw [value?_radix hr (by simpa using hsome) hlower,
        Decimal.ofDigits_map r digitValue_lowerChar]
  · obtain ⟨hrow, hhead, hnormal⟩ := normalise_decimal h.nonempty hradix hrun
    rw [hnormal, value?_row hrow, magnitude, hradix, ← Decimal.ofDigits_eq, hhead]
    refine ⟨fun hmem => (ne_of_isDigit (by decide) (hrow.digits 'j' hmem)).2.2.2 rfl, ?_⟩
    simp [IsPadded, hradix]

/-- **The reader gives a whole number the value of its digits**, if it has room for it and the text
has no zero in front that could be left out. -/
theorem IsWhole.read_eq {text : String} (h : IsWhole text.toList) :
    read text =
      if magnitude text.toList < 2 ^ 63 ∧ ¬ IsPadded text.toList then
        .ok (.int (Int64.ofNat (magnitude text.toList)))
      else .error (.malformedNumber text) := by
  obtain ⟨hmark, hvalue⟩ := h.value?_normalise
  have hreal : ((normalise text.toList).getLast? == some 'j') = false := by
    simpa using fun hlast => hmark (List.mem_of_getLast? hlast)
  rw [read, hvalue, wholeNumber?_ofNat]
  simp only [hreal, Bool.false_eq_true, if_false]
  by_cases hpadded : IsPadded text.toList
  · rw [if_pos hpadded, if_neg fun hp => hp.2 hpadded]
  · by_cases hroom : magnitude text.toList < 2 ^ 63
    · rw [if_neg hpadded, if_pos hroom, if_pos ⟨hroom, hpadded⟩]
    · rw [if_neg hpadded, if_neg hroom, if_neg fun hp => hroom hp.1]

end Number

namespace Reading

open Number (IsWhole IsPadded magnitude)

/-- **A whole number is a constant with the value of its digits.**  The number is read exactly if it
has at most 63 bits and its text is not a decimal one with a zero in front for no reason; else the
text is refused, unchanged. -/
theorem constant_whole {c : Cursor} (hkind : c.kind = .number)
    (h : IsWhole c.current.text.toList) :
    (magnitude c.current.text.toList < 2 ^ 63 ∧ ¬ IsPadded c.current.text.toList →
      ∃ v : Int64, v.toInt = magnitude c.current.text.toList ∧
        constant c = (.ok (.ofLiteral (.int v) c.current.span), c.advance)) ∧
    (¬ (magnitude c.current.text.toList < 2 ^ 63 ∧ ¬ IsPadded c.current.text.toList) →
      constant c =
        (.error ⟨.malformedNumber c.current.text, c.current.span.start⟩, c.advance)) := by
  have hnumber : constant c = number c := by
    rw [constant, Parse.look_bind_run, hkind]
  have hread := h.read_eq
  rw [hnumber, number, Parse.advance_bind_run]
  constructor
  · intro hroom
    rw [if_pos hroom] at hread
    exact ⟨Int64.ofNat (magnitude c.current.text.toList), Int64.toInt_ofNat_of_lt hroom.1, by
      rw [hread]; rfl⟩
  · intro hroom
    rw [if_neg hroom] at hread
    rw [hread]
    rfl

/-- A number of 63 bits in radix sixteen, with letters in both cases, underscores and what elsewhere
would be an exponent; a decimal number that has one bit too many; and one with zeros in front. -/
theorem constant_whole_boundaries :
    let span : Span := ⟨⟨0, "main.py"⟩, ⟨21, "main.py"⟩⟩
    let start (text : String) : Cursor := Cursor.ofTokens [⟨.number, text, span⟩] "main.py"
    (∃ v : Int64, v.toInt = 2 ^ 63 - 0x1e1 ∧ constant (start "0X7fff_FFFF_FfFf_fE1F") =
      (.ok (.ofLiteral (.int v) span), (start "0X7fff_FFFF_FfFf_fE1F").advance)) ∧
    constant (start "9223372036854775808") =
      (.error ⟨.malformedNumber "9223372036854775808", span.start⟩,
        (start "9223372036854775808").advance) ∧
    constant (start "00_7") =
      (.error ⟨.malformedNumber "00_7", span.start⟩, (start "00_7").advance) := by
  intro span start
  have hlarge : IsWhole "0X7fff_FFFF_FfFf_fE1F".toList :=
    ⟨by decide, by decide +kernel, by rintro _ ⟨⟩; decide, by decide, by decide⟩
  have hover : IsWhole "9223372036854775808".toList :=
    ⟨by decide, by decide +kernel, by rintro _ ⟨⟩; decide, by decide, by decide⟩
  have hpadded : IsWhole "00_7".toList :=
    ⟨by decide, by decide +kernel, by rintro _ ⟨⟩; decide, by decide, by decide⟩
  refine ⟨?_, ?_, ?_⟩
  · obtain ⟨v, hv, hread⟩ :=
      (constant_whole (c := start "0X7fff_FFFF_FfFf_fE1F") rfl hlarge).1 (by decide +kernel)
    have hvalue : magnitude "0X7fff_FFFF_FfFf_fE1F".toList = 2 ^ 63 - 0x1e1 := by decide +kernel
    exact ⟨v, hv.trans (congrArg Nat.cast hvalue), hread⟩
  · exact (constant_whole (c := start "9223372036854775808") rfl hover).2 (by decide +kernel)
  · exact (constant_whole (c := start "00_7") rfl hpadded).2 (by decide +kernel)

end Reading
end SlotTree

import SlotTree.Proofs.Token.Words
import SlotTree.Proofs.Token.Origin

/-!
# What the scanner emits

A token that was made by hand may have any text, one that the scanner has emitted may
not: an identifier is a name that is not reserved, and a number has no sign in front
(`Token.Genuine`).  So the value of a scanned number is never negative, and can be written
down again (`Literal.Writable`).

The only minus sign that a number can have belongs to an exponent.  What the reader of
numbers takes for a sign is a minus sign at the start of the text, or right behind a zero
and the letter of a radix, and a text that has such a letter has no exponent.
-/

namespace SlotTree

/-- The value has a source form that is read as the value: whole numbers must not be
negative, and floating-point numbers be finite and without a sign. -/
def Literal.Writable : Literal → Prop
  | .int n => 0 ≤ n.toInt
  | .float x => x.isFinite = true ∧ x.isNegative = false
  | _ => True

/-- The token has a text that the scanner could have given it. -/
structure Token.Genuine (t : Token) : Prop where
  name : t.kind = .identifier →
    Lexeme.IsWord t.text.toList ∧ Reserved.ofWord? t.text = none
  number : t.kind = .number → ∀ v, Number.read t.text = .ok v → v.Writable

/-! ## The sign of a number -/

namespace Decimal

theorem splitSign_fst {cs : List Char} (h : cs.head? ≠ some '-') : (splitSign cs).1 = false := by
  unfold splitSign
  split
  · exact absurd rfl h
  · rfl
  · rfl

theorem readInt?_nonneg {radix : Nat} {cs : List Char} {n : Int} (h : cs.head? ≠ some '-')
    (hread : readInt? radix cs = some n) : 0 ≤ n := by
  have hsign := splitSign_fst h
  unfold readInt? at hread
  generalize splitSign cs = split at hsign hread
  obtain ⟨negative, body⟩ := split
  simp only at hsign hread
  subst hsign
  split at hread
  · cases hread
  · obtain rfl := Option.some.inj hread
    exact Int.natCast_nonneg _

theorem read?_sign {cs : List Char} {negative : Bool} {d : Decimal} (h : cs.head? ≠ some '-')
    (hread : read? cs = some (negative, d)) : negative = false := by
  have hsign := splitSign_fst h
  unfold read? at hread
  generalize splitSign cs = split at hsign hread
  obtain ⟨sign, body⟩ := split
  simp only at hsign hread
  subst hsign
  split at hread
  · split at hread
    · cases hread
    · obtain ⟨exponent, -, hpair⟩ := Option.map_eq_some_iff.mp hread
      exact (Prod.mk.inj hpair).1.symm
  · split at hread
    · cases hread
    · obtain ⟨exponent, -, hpair⟩ := Option.map_eq_some_iff.mp hread
      exact (Prod.mk.inj hpair).1.symm

end Decimal

namespace Binary64

theorem patternOfDecimal_le (d : Decimal) : patternOfDecimal d ≤ infinityPattern := by
  have hnearest : ∀ num den, nearestPattern num den ≤ infinityPattern := by
    intro num den
    unfold nearestPattern
    simp only
    split
    · exact Nat.le_refl _
    · next h => exact Nat.le_of_lt (Nat.not_le.mp h)
  unfold patternOfDecimal
  split
  · exact Nat.zero_le _
  · simp only
    split
    · exact Nat.le_refl _
    · split
      · exact Nat.zero_le _
      · split
        · exact hnearest _ _
        · exact hnearest _ _

theorem isNegative_ofDecimal (d : Decimal) : (ofDecimal false d).isNegative = false := by
  have hle := patternOfDecimal_le d
  have hinfinity : infinityPattern < pow2 63 := by decide +kernel
  have hword : pow2 63 < 2 ^ 64 := by decide +kernel
  have hbits : (ofDecimal false d).bits.toNat = patternOfDecimal d := by
    simp only [ofDecimal, ofPattern, Bool.false_eq_true, if_false]
    exact Nat.mod_eq_of_lt (by omega)
  rw [isNegative, hbits, decide_eq_false_iff_not]
  omega

end Binary64

namespace Number

open Text (lowerChar lowerChar_of_isDigit)

theorem writable_of_wholeNumber? {n : Int} {v : Literal} (hn : 0 ≤ n)
    (h : wholeNumber? n = some v) : v.Writable := by
  unfold wholeNumber? at h
  split at h
  · next hbounds =>
    simp only [Bool.and_eq_true, decide_eq_true_eq] at hbounds
    obtain rfl := Option.some.inj h
    have hint : (Int64.ofInt n).toInt = n := Int64.toInt_ofInt_of_le (by omega) (by omega)
    rw [Literal.Writable, hint]
    exact hn
  · cases h

/-- A text without a sign in front, and without one behind a radix, is a value that can be
written. -/
theorem writable_of_value? {cs : List Char} {v : Literal} (hhead : cs.head? ≠ some '-')
    (hradix : ∀ radix figures, splitRadix? cs = some (radix, figures) → figures.head? ≠ some '-')
    (h : value? cs = some v) : v.Writable := by
  unfold value? at h
  split at h
  · next radix figures hsplit =>
    obtain ⟨n, hread, hwhole⟩ := Option.bind_eq_some_iff.mp h
    exact writable_of_wholeNumber? (Decimal.readInt?_nonneg (hradix _ _ hsplit) hread) hwhole
  · split at h
    · obtain ⟨⟨negative, d⟩, hread, hfloat⟩ := Option.bind_eq_some_iff.mp h
      obtain rfl := Decimal.read?_sign hhead hread
      simp only at hfloat
      split at hfloat
      · next hfinite =>
        obtain rfl := Option.some.inj hfloat
        exact ⟨hfinite, Binary64.isNegative_ofDecimal d⟩
      · cases hfloat
    · split at h
      · cases h
      · obtain ⟨n, hread, hwhole⟩ := Option.bind_eq_some_iff.mp h
        exact writable_of_wholeNumber? (Decimal.readInt?_nonneg hhead hread) hwhole

/-- Putting a text into lower case changes letters only. -/
theorem lowerChar_cases (c : Char) : lowerChar c = c ∨ 97 ≤ (lowerChar c).toNat := by
  unfold lowerChar
  split
  · next hcapital =>
    right
    simp only [Bool.and_eq_true, decide_eq_true_eq] at hcapital
    have hall : ∀ n ∈ List.range 26, 97 ≤ (Char.ofNat (65 + n + 32)).toNat := by decide
    have hcode := hall (c.toNat - 65) (List.mem_range.mpr (by omega))
    rwa [Nat.add_sub_cancel' hcapital.1] at hcode
  · exact Or.inl rfl

theorem eq_of_lowerChar_eq {c d : Char} (h : lowerChar c = d) (hd : d.toNat < 97) : c = d := by
  rcases lowerChar_cases c with hsame | hletter
  · rw [← hsame, h]
  · rw [h] at hletter
    omega

/-- The characters of a number in radix ten. -/
def isDecimalChar (c : Char) : Bool :=
  Decimal.isDigit 10 c || ['_', '.', 'e', 'E', '+', '-', 'j', 'J'].contains c

/-- No character of a number in radix ten is read as the letter of a radix. -/
theorem lowerChar_of_isDecimalChar {c : Char} (h : isDecimalChar c = true) :
    lowerChar c ≠ 'x' ∧ lowerChar c ≠ 'o' ∧ lowerChar c ≠ 'b' := by
  simp only [isDecimalChar, Bool.or_eq_true, List.contains_iff_mem] at h
  rcases h with hdigit | hmem
  · rw [lowerChar_of_isDigit hdigit]
    obtain ⟨-, hhigh⟩ := Decimal.isDigit_ten_iff.mp hdigit
    refine ⟨?_, ?_, ?_⟩
    all_goals
      rintro rfl
      exact absurd hhigh (by decide)
  · revert c
    apply forall_mem_of_all
    decide

/-- A text in radix ten that starts with a digit or a point. -/
structure Unsigned (cs : List Char) : Prop where
  starts : ∃ c ds, cs = c :: ds ∧ (Decimal.isDigit 10 c = true ∨ c = '.')
  chars : ∀ c ∈ cs, isDecimalChar c = true

/-- A text without a minus sign, or with one in an exponent only, has none in front. -/
theorem head?_normalise {cs : List Char} (h : '-' ∉ cs ∨ Unsigned cs) :
    (normalise cs).head? ≠ some '-' := by
  intro hhead
  rcases h with hnone | ⟨⟨c, ds, rfl, hc⟩, -⟩
  · obtain ⟨c, hmem, hlower⟩ := List.mem_map.mp (List.mem_of_mem_head? hhead)
    rw [eq_of_lowerChar_eq hlower (by decide)] at hmem
    exact hnone (List.mem_filter.mp hmem).1
  · have hplain : c ≠ '_' ∧ c ≠ '-' := by
      rcases hc with hdigit | rfl
      · constructor <;> rintro rfl <;> exact absurd hdigit (by decide)
      · decide
    have hkept : (c != '_') = true := by simpa using hplain.1
    have hlower : lowerChar c = '-' := by simpa [normalise, hkept] using hhead
    exact hplain.2 (eq_of_lowerChar_eq hlower (by decide))

/-- Nor is there one behind the letter of a radix. -/
theorem head?_figures {cs : List Char} (h : '-' ∉ cs ∨ Unsigned cs) {radix : Nat}
    {figures : List Char} (hsplit : splitRadix? (normalise cs) = some (radix, figures)) :
    figures.head? ≠ some '-' := by
  obtain ⟨letter, hletter, hnormal⟩ :
      ∃ letter, letter ∈ ['x', 'o', 'b'] ∧ normalise cs = '0' :: letter :: figures := by
    unfold splitRadix? at hsplit
    split at hsplit
    all_goals cases hsplit
    · next heq => exact ⟨'x', by simp, heq⟩
    · next heq => exact ⟨'o', by simp, heq⟩
    · next heq => exact ⟨'b', by simp, heq⟩
  have hmem : ∀ d ∈ '0' :: letter :: figures, ∃ c ∈ cs, lowerChar c = d := by
    intro d hd
    rw [← hnormal] at hd
    obtain ⟨c, hc, rfl⟩ := List.mem_map.mp hd
    exact ⟨c, (List.mem_filter.mp hc).1, rfl⟩
  rcases h with hnone | ⟨-, hchars⟩
  · intro hhead
    obtain ⟨c, hc, hlower⟩ := hmem '-' (by simp [List.mem_of_mem_head? hhead])
    rw [eq_of_lowerChar_eq hlower (by decide)] at hc
    exact hnone hc
  · -- the letter of the radix would have to belong to a number in radix ten
    obtain ⟨c, hc, rfl⟩ := hmem letter (by simp)
    obtain ⟨hx, ho, hb⟩ := lowerChar_of_isDecimalChar (hchars c hc)
    simp [hx, ho, hb] at hletter

theorem writable_of_read {text : String} (h : '-' ∉ text.toList ∨ Unsigned text.toList)
    {v : Literal} (hread : read text = .ok v) : v.Writable := by
  unfold read at hread
  simp only at hread
  split at hread
  · cases hread
  · split at hread
    · next hvalue =>
      obtain rfl := Except.ok.inj hread
      exact writable_of_value? (head?_normalise h) (fun _ _ => head?_figures h) hvalue
    · cases hread

end Number

/-! ## The text of a number -/

namespace Lexeme

open Number (isDecimalChar Unsigned)
open Text (leadingName)

theorem mem_digitRun {isDigit : Char → Bool} {cs : List Char} {c : Char}
    (h : c ∈ digitRun isDigit cs) : isDigit c = true ∨ c = '_' := by
  fun_induction digitRun isDigit cs with
  | case1 => simp at h
  | case2 d ds hd ih =>
    rcases List.mem_cons.mp h with rfl | h
    · exact Or.inl hd
    · exact ih h
  | case3 d _ hunderscore e es he ih =>
    rcases List.mem_cons.mp h with rfl | h
    · exact Or.inr (by simpa using hunderscore)
    · rcases List.mem_cons.mp h with rfl | h
      · exact Or.inl he
      · exact ih h
  | case4 | case5 | case6 => simp at h

theorem isDecimalChar_of_mem_decimalRun {cs : List Char} {c : Char} (h : c ∈ decimalRun cs) :
    isDecimalChar c = true := by
  have hdigits : Decimal.isDigit 10 c = true ∨ c = '_' := by
    cases cs with
    | nil => simp [decimalRun] at h
    | cons d ds =>
      rw [decimalRun] at h
      split at h
      · next hd =>
        rcases List.mem_cons.mp h with rfl | h
        · exact Or.inl hd
        · exact mem_digitRun h
      · simp at h
  rcases hdigits with hdigit | rfl
  · simp [isDecimalChar, hdigit]
  · decide

theorem exists_eq_decimalRun {cs : List Char} (h : decimalRun cs ≠ []) :
    ∃ c ds, decimalRun cs = c :: ds ∧ Decimal.isDigit 10 c = true := by
  cases cs with
  | nil => exact absurd rfl h
  | cons d ds =>
    rw [decimalRun] at h ⊢
    split at h
    · next hd => exact ⟨d, _, if_pos hd, hd⟩
    · exact absurd rfl h

theorem isDecimalChar_of_mem_leadingExponent {cs : List Char} {c : Char}
    (h : c ∈ leadingExponent cs) : isDecimalChar c = true := by
  unfold leadingExponent at h
  split at h
  · next d ds =>
    split at h
    · next hmark =>
      have hletter : isDecimalChar d = true := by
        rcases (by simpa using hmark : d = 'e' ∨ d = 'E') with rfl | rfl <;> decide
      split at h
      · next sign es =>
        split at h
        · next hsign =>
          have hsigned : isDecimalChar sign = true := by
            rcases (by simpa using hsign : sign = '+' ∨ sign = '-') with rfl | rfl <;> decide
          split at h
          · simp at h
          · rcases List.mem_cons.mp h with rfl | h
            · exact hletter
            · rcases List.mem_cons.mp h with rfl | h
              · exact hsigned
              · exact isDecimalChar_of_mem_decimalRun h
        · split at h
          · simp at h
          · rcases List.mem_cons.mp h with rfl | h
            · exact hletter
            · exact isDecimalChar_of_mem_decimalRun h
      · simp at h
    · simp at h
  · simp at h

theorem isDecimalChar_of_mem_leadingImaginary {cs : List Char} {c : Char}
    (h : c ∈ leadingImaginary cs) : isDecimalChar c = true := by
  unfold leadingImaginary at h
  split at h
  · split at h
    · next hmark =>
      obtain rfl := List.mem_singleton.mp h
      rcases (by simpa using hmark : c = 'j' ∨ c = 'J') with rfl | rfl <;> decide
    · simp at h
  · simp at h

/-- An exponent and an imaginary mark behind a numeral do not change how it starts. -/
theorem unsigned_withSuffixes {numeral cs : List Char} (h : Unsigned numeral) :
    Unsigned (withSuffixes numeral cs) := by
  obtain ⟨⟨c, ds, hnumeral, hc⟩, hchars⟩ := h
  constructor
  · obtain ⟨suffixes, hsuffixes⟩ : ∃ suffixes, withSuffixes numeral cs = numeral ++ suffixes :=
      ⟨_, List.append_assoc _ _ _⟩
    exact ⟨c, ds ++ suffixes, by rw [hsuffixes, hnumeral, List.cons_append], hc⟩
  · intro d hd
    simp only [withSuffixes, List.mem_append] at hd
    rcases hd with (hd | hd) | hd
    · exact hchars d hd
    · exact isDecimalChar_of_mem_leadingExponent hd
    · exact isDecimalChar_of_mem_leadingImaginary hd

theorem unsigned_leadingPoint {cs : List Char} (h : leadingPoint cs ≠ []) :
    Unsigned (leadingPoint cs) := by
  unfold leadingPoint at h ⊢
  simp only at h ⊢
  split
  · next rest hdrop =>
    rw [hdrop] at h
    simp only at h
    split
    · next hempty => simp [hempty] at h
    · refine unsigned_withSuffixes ⟨?_, ?_⟩
      · by_cases hwhole : decimalRun cs = []
        · exact ⟨'.', decimalRun rest, by rw [hwhole, List.nil_append], Or.inr rfl⟩
        · obtain ⟨c, ds, hrun, hc⟩ := exists_eq_decimalRun hwhole
          exact ⟨c, ds ++ '.' :: decimalRun rest, by rw [hrun, List.cons_append], Or.inl hc⟩
      · intro c hc
        rcases List.mem_append.mp hc with hc | hc
        · exact isDecimalChar_of_mem_decimalRun hc
        · rcases List.mem_cons.mp hc with rfl | hc
          · decide
          · exact isDecimalChar_of_mem_decimalRun hc
  · next hnone =>
    split at h
    · next rest hdrop => exact absurd hdrop (hnone rest)
    · exact absurd rfl h

theorem unsigned_leadingWhole {cs : List Char} (h : leadingWhole cs ≠ []) :
    Unsigned (leadingWhole cs) := by
  unfold leadingWhole at h ⊢
  simp only at h ⊢
  split at h
  · exact absurd rfl h
  · next hempty =>
    rw [if_neg hempty]
    obtain ⟨c, ds, hrun, hc⟩ := exists_eq_decimalRun (by simpa using hempty)
    exact unsigned_withSuffixes
      ⟨⟨c, ds, hrun, Or.inl hc⟩, fun d hd => isDecimalChar_of_mem_decimalRun hd⟩

/-- A number in another radix has no sign at all. -/
theorem dash_not_mem_leadingRadix (cs : List Char) : '-' ∉ leadingRadix cs := by
  intro h
  unfold leadingRadix at h
  split at h
  · next c cs =>
    split at h
    · next radix hradix =>
      have hletters : c ≠ '-' ∧ radix ≤ 16 := by
        unfold radixOf? at hradix
        grind
      simp only at h
      split at h
      · simp at h
      · rcases List.mem_cons.mp h with hzero | h
        · exact absurd hzero (by decide)
        · rcases List.mem_cons.mp h with hletter | h
          · exact hletters.1 hletter.symm
          · rcases mem_digitRun h with hdigit | hunderscore
            · have hvalue : Decimal.digitValue '-' = 16 := by decide
              rw [Decimal.isDigit, hvalue, decide_eq_true_eq] at hdigit
              omega
            · exact absurd hunderscore (by decide)
    · simp at h
  · simp at h

/-- **The number that a text starts with has no sign in front.** -/
theorem unsigned_leadingNumber (cs : List Char) :
    '-' ∉ leadingNumber cs ∨ Unsigned (leadingNumber cs) := by
  unfold leadingNumber
  split
  · exact Or.inl (dash_not_mem_leadingRadix cs)
  · split
    · next hpoint => exact Or.inr (unsigned_leadingPoint (by simpa using hpoint))
    · by_cases hwhole : leadingWhole cs = []
      · rw [hwhole]
        exact Or.inl (by simp)
      · exact Or.inr (unsigned_leadingWhole hwhole)

/-- The name that a text starts with is a name. -/
theorem isWord_leadingName {cs : List Char} (h : leadingName cs ≠ []) :
    IsWord (leadingName cs) := by
  cases cs with
  | nil => exact absurd rfl h
  | cons c cs =>
    rw [Text.leadingName] at h ⊢
    split at h
    · next hc =>
      rw [if_pos hc]
      exact ⟨c, _, rfl, hc, List.all_eq_true.mp List.all_takeWhile⟩
    · exact absurd rfl h

/-- What a text starts with is a token that the scanner can emit. -/
theorem genuine_of_next {cs chars : List Char} {kind : TokenKind} {text : String}
    (h : next cs = .ok ⟨.token kind text, chars⟩) (span : Span) :
    (Token.mk kind text span).Genuine := by
  rcases next_token_cases h with ⟨mark, rfl⟩ | ⟨rfl, rfl⟩ | ⟨rfl, htext, hne⟩ | ⟨row, hrow, rfl⟩
  · have hkinds : stringKind mark ≠ .identifier ∧ stringKind mark ≠ .number := by
      unfold stringKind
      split
      · decide
      · split <;> decide
    exact ⟨fun hkind => absurd hkind hkinds.1, fun hkind => absurd hkind hkinds.2⟩
  · refine ⟨fun hkind => (by cases hkind), fun _ v hread => Number.writable_of_read ?_ hread⟩
    rw [String.toList_ofList]
    exact unsigned_leadingNumber cs
  · refine ⟨fun hkind => ⟨?_, ?_⟩, fun hkind => ?_⟩
    · rw [htext, String.toList_ofList]
      exact isWord_leadingName hne
    · simp only [nameKind] at hkind
      split at hkind
      · cases hkind
      · next hnone => exact hnone
    · simp only [nameKind] at hkind
      split at hkind <;> cases hkind
  · have hall : ∀ row ∈ operators, row.2 ≠ .identifier ∧ row.2 ≠ .number := by decide
    exact ⟨fun hkind => absurd hkind (hall row hrow).1, fun hkind => absurd hkind (hall row hrow).2⟩

end Lexeme

/-! ## The whole stream -/

/-- A name or a number does not come from the layout. -/
theorem Token.Origin.genuine {file : String} {t : Token} (h : t.Origin file) : t.Genuine := by
  rcases h.source with hlayout | ⟨cs, chars, hnext, -⟩
  · have hkinds : ∀ kind ∈ [TokenKind.newline, .indent, .dedent, .eof],
        kind ≠ .identifier ∧ kind ≠ .number := by decide
    obtain ⟨hname, hnumber⟩ := hkinds t.kind hlayout
    exact ⟨fun hkind => absurd hkind hname, fun hkind => absurd hkind hnumber⟩
  · exact Lexeme.genuine_of_next hnext t.span

/-- **The tokens of a script are what a scanner can emit.** -/
theorem genuine_of_tokenize {source file : String} {tokens : List Token}
    (h : tokenize source file = .ok tokens) : ∀ t ∈ tokens, t.Genuine :=
  fun t ht => (origin_of_tokenize h t ht).genuine

end SlotTree

import SlotTree.Proofs.Decimal.Rounding
import SlotTree.Reading.Number

/-!
# Numerals

A number is written in one of four forms: digits alone, digits around a point, and each
of these with an exponent (`Numeral`).  Digits alone are a whole number and the others a
floating-point number, and in both cases reading the text gives the number that was
written.

For a floating-point number the way is longer.  The digits that are written are those of
the shortest decimal without the zeros at their end; the text puts a point somewhere into
them, or fills up with zeros, or adds an exponent; and reading the text gives a decimal
that is split differently from the one that was written.  All these decimals have one
value, so they are all rounded to the same pattern.
-/

namespace SlotTree

/-- Digits, at least one. -/
structure DigitRow (cs : List Char) : Prop where
  nonempty : cs ≠ []
  digits : ∀ c ∈ cs, Decimal.isDigit 10 c = true

/-- A sign in front of an exponent. -/
def IsSign (c : Char) : Prop := c = '+' ∨ c = '-'

/-- The forms in which a number is written. -/
inductive Numeral : List Char → Prop where
  | whole {ds : List Char} (digits : DigitRow ds) : Numeral ds
  | point {ds fs : List Char} (digits : DigitRow ds) (fraction : DigitRow fs) :
      Numeral (ds ++ '.' :: fs)
  | exponent {ds es : List Char} {sign : Char} (digits : DigitRow ds) (isSign : IsSign sign)
      (exponent : DigitRow es) : Numeral (ds ++ 'e' :: sign :: es)
  | pointExponent {ds fs es : List Char} {sign : Char} (digits : DigitRow ds)
      (fraction : DigitRow fs) (isSign : IsSign sign) (exponent : DigitRow es) :
      Numeral (ds ++ '.' :: (fs ++ 'e' :: sign :: es))

namespace DigitRow

theorem digits_row (n : Nat) : DigitRow (Decimal.digits n) :=
  ⟨Decimal.digits_ne_nil n, fun _ => Decimal.isDigit_of_mem_digits⟩

theorem append {xs ys : List Char} (hx : DigitRow xs) (hy : DigitRow ys) : DigitRow (xs ++ ys) :=
  ⟨by simp [hx.nonempty], fun c hc => (List.mem_append.mp hc).elim (hx.digits c) (hy.digits c)⟩

theorem append_zeros {xs : List Char} (h : DigitRow xs) (n : Nat) :
    DigitRow (xs ++ List.replicate n '0') := by
  refine ⟨by simp [h.nonempty], fun c hc => ?_⟩
  rcases List.mem_append.mp hc with hc | hc
  · exact h.digits c hc
  · rw [List.eq_of_mem_replicate hc]
    rfl

theorem zeros_append {xs : List Char} (h : DigitRow xs) (n : Nat) :
    DigitRow (List.replicate n '0' ++ xs) := by
  refine ⟨by simp [h.nonempty], fun c hc => ?_⟩
  rcases List.mem_append.mp hc with hc | hc
  · rw [List.eq_of_mem_replicate hc]
    rfl
  · exact h.digits c hc

theorem zero : DigitRow ['0'] := by
  refine ⟨by simp, fun c hc => ?_⟩
  rw [List.mem_singleton.mp hc]
  rfl

theorem take {xs : List Char} (h : DigitRow xs) {n : Nat} (hn : 0 < n) : DigitRow (xs.take n) := by
  refine ⟨?_, fun c hc => h.digits c (List.mem_of_mem_take hc)⟩
  rw [Ne, List.take_eq_nil_iff]
  rintro (hzero | hnil)
  · omega
  · exact h.nonempty hnil

theorem drop {xs : List Char} (h : DigitRow xs) {n : Nat} (hn : n < xs.length) :
    DigitRow (xs.drop n) := by
  refine ⟨?_, fun c hc => h.digits c (List.mem_of_mem_drop hc)⟩
  rw [Ne, List.drop_eq_nil_iff]
  omega

/-- A row of digits is taken whole where no digit follows. -/
theorem takeWhile_append {xs : List Char} (h : DigitRow xs) (rest : List Char)
    (hrest : ∀ c ∈ rest.head?, Decimal.isDigit 10 c = false) :
    (xs ++ rest).takeWhile (Decimal.isDigit 10) = xs ∧
      (xs ++ rest).dropWhile (Decimal.isDigit 10) = rest := by
  rw [List.takeWhile_append_of_pos h.digits, List.dropWhile_append_of_pos h.digits]
  cases rest with
  | nil => simp
  | cons c rest =>
    have hc := hrest c rfl
    simp [hc]

/-- A row of digits has no sign in front. -/
theorem splitSign_append {xs : List Char} (h : DigitRow xs) (rest : List Char) :
    Decimal.splitSign (xs ++ rest) = (false, xs ++ rest) := by
  obtain ⟨c, cs, rfl⟩ := List.exists_cons_of_ne_nil h.nonempty
  have hc := Decimal.isDigit_ten_iff.mp (h.digits c List.mem_cons_self)
  rw [List.cons_append, Decimal.splitSign]
  · rintro ds ⟨⟩
    exact absurd hc (by decide)
  · rintro ds ⟨⟩
    exact absurd hc (by decide)

/-- A row of digits is a whole number. -/
theorem readInt? {xs : List Char} (h : DigitRow xs) :
    Decimal.readInt? 10 xs = some (Int.ofNat (Decimal.ofDigits 10 xs)) :=
  Decimal.readInt?_of_digits (by decide) h.nonempty h.digits

end DigitRow

/-- The whole number behind a sign. -/
def signed (sign : Char) (n : Nat) : Int := if sign = '-' then -n else n

theorem readInt?_signed {sign : Char} {es : List Char} (hsign : IsSign sign) (h : DigitRow es) :
    Decimal.readInt? 10 (sign :: es) = some (signed sign (Decimal.ofDigits 10 es)) := by
  have hnonempty : es.isEmpty = false := by simpa using h.nonempty
  have hall : es.all (Decimal.isDigit 10) = true := List.all_eq_true.mpr h.digits
  rcases hsign with rfl | rfl
  · simp [Decimal.readInt?, Decimal.splitSign, hnonempty, hall, signed]
  · simp [Decimal.readInt?, Decimal.splitSign, hnonempty, hall, signed]

namespace Decimal

/-! ## Reading the forms -/

/-- Digits around a point. -/
theorem read?_point {ds fs : List Char} (hd : DigitRow ds) (hf : DigitRow fs) :
    read? (ds ++ '.' :: fs) = some (false, ⟨ofDigits 10 (ds ++ fs), -(fs.length : Int)⟩) := by
  obtain ⟨htake, hdrop⟩ := hd.takeWhile_append ('.' :: fs) (by simp; decide)
  obtain ⟨htake', hdrop'⟩ := hf.takeWhile_append [] (by simp)
  rw [List.append_nil] at htake' hdrop'
  have hnonempty : (ds ++ fs).isEmpty = false := by simp [hd.nonempty]
  rw [read?, hd.splitSign_append]
  simp [htake, hdrop, htake', hdrop', hnonempty, readExponent?]

/-- Digits with an exponent. -/
theorem read?_exponent {ds es : List Char} {sign : Char} (hd : DigitRow ds) (hsign : IsSign sign)
    (he : DigitRow es) :
    read? (ds ++ 'e' :: sign :: es) =
      some (false, ⟨ofDigits 10 ds, signed sign (ofDigits 10 es)⟩) := by
  obtain ⟨htake, hdrop⟩ := hd.takeWhile_append ('e' :: sign :: es) (by simp; decide)
  have hnonempty : ds.isEmpty = false := by simp [hd.nonempty]
  rw [read?, hd.splitSign_append]
  simp [htake, hdrop, hnonempty, readExponent?, readInt?_signed hsign he]

/-- Digits around a point with an exponent. -/
theorem read?_pointExponent {ds fs es : List Char} {sign : Char} (hd : DigitRow ds)
    (hf : DigitRow fs) (hsign : IsSign sign) (he : DigitRow es) :
    read? (ds ++ '.' :: (fs ++ 'e' :: sign :: es)) =
      some (false, ⟨ofDigits 10 (ds ++ fs), signed sign (ofDigits 10 es) - fs.length⟩) := by
  obtain ⟨htake, hdrop⟩ :=
    hd.takeWhile_append ('.' :: (fs ++ 'e' :: sign :: es)) (by simp; decide)
  obtain ⟨htake', hdrop'⟩ := hf.takeWhile_append ('e' :: sign :: es) (by simp; decide)
  have hnonempty : (ds ++ fs).isEmpty = false := by simp [hd.nonempty]
  rw [read?, hd.splitSign_append]
  simp [htake, hdrop, htake', hdrop', hnonempty, readExponent?, readInt?_signed hsign he]

end Decimal

namespace Digits

/-! ## The digits of a decimal -/

/-- The decimal that significant digits stand for. -/
def decimal (d : Digits) : Decimal :=
  ⟨Decimal.ofDigits 10 d.figures, d.exponent + 1 - d.figures.length⟩

/-- The significant digits of a decimal are a row of digits, and they have its value. -/
theorem ofDecimal_spec (d : Decimal) :
    DigitRow (ofDecimal d).figures ∧
      Binary64.patternOfDecimal (ofDecimal d).decimal = Binary64.patternOfDecimal d := by
  obtain ⟨c, e⟩ := d
  by_cases hc : c = 0
  · subst hc
    have hzero : (ofDecimal ⟨0, e⟩).decimal = ⟨0, 0⟩ := rfl
    refine ⟨DigitRow.zero, ?_⟩
    rw [hzero, Binary64.patternOfDecimal_zero, Binary64.patternOfDecimal_zero]
  have hofDecimal : ofDecimal ⟨c, e⟩ =
      ⟨Text.dropEndWhile (· == '0') (Decimal.digits c), Int.ofNat (Decimal.size c) - 1 + e⟩ := by
    rw [ofDecimal, if_neg (by simpa using hc)]
  have hzero : ∀ d : Char, (d == '0') = true → d = '0' := fun d hd => beq_iff_eq.mp hd
  obtain ⟨z, hz⟩ := Text.exists_dropEndWhile_append hzero (Decimal.digits c)
  generalize Text.dropEndWhile (· == '0') (Decimal.digits c) = fs at hofDecimal hz
  have hrow : DigitRow fs := by
    constructor
    · -- the first digit is not a zero, so it is kept
      rintro rfl
      have hhead := Decimal.head?_digits_ne_zero hc
      have hne := Decimal.digits_ne_nil c
      rw [hz, List.nil_append] at hhead hne
      cases z with
      | zero => exact hne rfl
      | succ z => exact hhead rfl
    · intro d hd
      refine Decimal.isDigit_of_mem_digits (n := c) ?_
      rw [hz]
      exact List.mem_append_left _ hd
  have hvalue : c = Decimal.ofDigits 10 fs * 10 ^ z := by
    have hdenotes := Decimal.ofDigits_digits c
    rw [hz, Decimal.ofDigits_append, List.length_replicate, Decimal.ofDigits_replicate_zero,
      Nat.add_zero] at hdenotes
    exact hdenotes.symm
  have hsize : Decimal.size c = fs.length + z := by
    rw [Decimal.size, hz, List.length_append, List.length_replicate]
  rw [hofDecimal]
  refine ⟨hrow, ?_⟩
  have hexponent : Int.ofNat (Decimal.size c) - 1 + e + 1 - fs.length = e + z := by
    rw [hsize, Int.ofNat_eq_natCast]
    push_cast
    ring
  have hshift := Binary64.patternOfDecimal_shift (Decimal.ofDigits 10 fs) (e + z) z
  rw [← hvalue, Int.add_sub_cancel] at hshift
  rw [decimal, hexponent, hshift]

/-- Digits around a point read back as the decimal that they stand for. -/
theorem read?_positional {d : Digits} (h : DigitRow d.figures) :
    Numeral d.positional ∧ '.' ∈ d.positional ∧ ∃ read, Decimal.read? d.positional =
        some (false, read) ∧
      Binary64.patternOfDecimal read = Binary64.patternOfDecimal d.decimal := by
  obtain ⟨fs, exponent⟩ := d
  simp only at h
  cases exponent with
  | negSucc e =>
    -- zeros between the point and the first digit
    have hrow := h.zeros_append e
    have hread := Decimal.read?_point DigitRow.zero hrow
    refine ⟨.point DigitRow.zero hrow, by simp [positional], _, hread, ?_⟩
    congr 2
    · rw [Decimal.ofDigits_append, Decimal.ofDigits_append, Decimal.ofDigits_replicate_zero]
      simp [Decimal.digitValue]
    · simp only [List.length_append, List.length_replicate]
      omega
  | ofNat e =>
    by_cases hlength : fs.length ≤ e + 1
    · -- zeros between the last digit and the point
      have hwhole := h.append_zeros (e + 1 - fs.length)
      have hpositional : (⟨fs, .ofNat e⟩ : Digits).positional =
          (fs ++ List.replicate (e + 1 - fs.length) '0') ++ '.' :: ['0'] := by
        simp [positional, List.take_of_length_le hlength, List.drop_of_length_le hlength]
      rw [hpositional]
      refine ⟨.point hwhole DigitRow.zero, by simp, _,
        Decimal.read?_point hwhole DigitRow.zero, ?_⟩
      have hdenotes : Decimal.ofDigits 10 (fs ++ List.replicate (e + 1 - fs.length) '0' ++ ['0']) =
          Decimal.ofDigits 10 fs * 10 ^ (e + 1 - fs.length + 1) := by
        rw [List.append_assoc, Decimal.ofDigits_append, ← List.replicate_succ',
          Decimal.ofDigits_replicate_zero, List.length_replicate, Nat.add_zero]
      have hshift := Binary64.patternOfDecimal_shift (Decimal.ofDigits 10 fs)
        (Int.ofNat e + 1 - fs.length) (e + 1 - fs.length + 1)
      rw [decimal, ← hshift, hdenotes]
      congr 2
      simp only [List.length_singleton, Int.ofNat_eq_natCast]
      omega
    · have hpositional : (⟨fs, .ofNat e⟩ : Digits).positional =
          fs.take (e + 1) ++ '.' :: fs.drop (e + 1) := by
        have hmin : (fs.take (e + 1)).length = e + 1 := by
          rw [List.length_take]
          omega
        have hfraction : (fs.drop (e + 1)).isEmpty = false := by
          simpa [List.drop_eq_nil_iff] using hlength
        simp [positional, hmin, hfraction]
      have hwhole := h.take (Nat.succ_pos e)
      have hfraction := h.drop (Nat.not_le.mp hlength)
      rw [hpositional]
      refine ⟨.point hwhole hfraction, by simp, _, Decimal.read?_point hwhole hfraction, ?_⟩
      congr 2
      · rw [List.take_append_drop]
      · simp only [List.length_drop, Int.ofNat_eq_natCast]
        omega

/-- A first digit and an exponent read back as the decimal that they stand for. -/
theorem read?_scientific {d : Digits} (h : DigitRow d.figures) :
    Numeral (d.scientific .source) ∧ 'e' ∈ d.scientific .source ∧ ∃ read,
      Decimal.read? (d.scientific .source) = some (false, read) ∧
      Binary64.patternOfDecimal read = Binary64.patternOfDecimal d.decimal := by
  obtain ⟨figures, exponent⟩ := d
  simp only at h
  -- the exponent with its sign, filled up to two digits
  obtain ⟨sign, es, hsign, hes, hexponent, htext⟩ : ∃ sign es, IsSign sign ∧ DigitRow es ∧
      signed sign (Decimal.ofDigits 10 es) = exponent ∧
      ((if exponent < 0 then ['-'] else if FloatStyle.source.plus then ['+'] else []) ++
        List.replicate (FloatStyle.source.width - (Decimal.digits exponent.natAbs).length) '0' ++
          Decimal.digits exponent.natAbs) = sign :: es := by
    have hrow := (DigitRow.digits_row exponent.natAbs).zeros_append
      (FloatStyle.source.width - (Decimal.digits exponent.natAbs).length)
    have hdenotes : Decimal.ofDigits 10
        (List.replicate (FloatStyle.source.width - (Decimal.digits exponent.natAbs).length) '0' ++
          Decimal.digits exponent.natAbs) = exponent.natAbs := by
      rw [Decimal.ofDigits_append, Decimal.ofDigits_replicate_zero, Decimal.ofDigits_digits,
        Nat.zero_mul, Nat.zero_add]
    by_cases hneg : exponent < 0
    · refine ⟨'-', _, Or.inr rfl, hrow, ?_, by simp [hneg]⟩
      rw [hdenotes, signed, if_pos rfl]
      omega
    · refine ⟨'+', _, Or.inl rfl, hrow, ?_, by simp [hneg, FloatStyle.source]⟩
      rw [hdenotes, signed, if_neg (by decide)]
      omega
  have hpattern (cs : List Char) (count : Int) (hcs : cs = figures)
      (hcount : count = exponent + 1 - figures.length) :
      Binary64.patternOfDecimal ⟨Decimal.ofDigits 10 cs, count⟩ =
        Binary64.patternOfDecimal (⟨figures, exponent⟩ : Digits).decimal := by
    rw [decimal, hcs, hcount]
  cases figures with
  | nil => exact absurd rfl h.nonempty
  | cons c cs =>
    have hc : DigitRow [c] :=
      ⟨by simp, fun d hd => h.digits d (by rw [List.mem_singleton.mp hd]; exact List.mem_cons_self)⟩
    cases cs with
    | nil =>
      have hscientific : (⟨[c], exponent⟩ : Digits).scientific .source =
          [c] ++ 'e' :: sign :: es := by
        rw [← htext]
        rfl
      rw [hscientific]
      refine ⟨.exponent hc hsign hes, by simp, _, Decimal.read?_exponent hc hsign hes, ?_⟩
      exact hpattern _ _ rfl (by rw [hexponent, List.length_singleton]; omega)
    | cons d ds =>
      have hfraction : DigitRow (d :: ds) :=
        ⟨by simp, fun x hx => h.digits x (List.mem_cons_of_mem c hx)⟩
      have hscientific : (⟨c :: d :: ds, exponent⟩ : Digits).scientific .source =
          [c] ++ '.' :: ((d :: ds) ++ 'e' :: sign :: es) := by
        rw [← htext]
        rfl
      rw [hscientific]
      refine ⟨.pointExponent hc hfraction hsign hes, by simp, _,
        Decimal.read?_pointExponent hc hfraction hsign hes, ?_⟩
      exact hpattern _ _ rfl (by rw [hexponent]; simp only [List.length_cons]; omega)

end Digits

/-! ## The value of a numeral -/

/-- A decimal digit is no letter. -/
theorem Text.lowerChar_of_isDigit {c : Char} (h : Decimal.isDigit 10 c = true) :
    lowerChar c = c := by
  obtain ⟨-, hhigh⟩ := Decimal.isDigit_ten_iff.mp h
  rw [lowerChar, if_neg]
  simp only [Bool.and_eq_true, decide_eq_true_eq]
  omega

namespace Numeral

theorem ne_nil {cs : List Char} (h : Numeral cs) : cs ≠ [] := by
  cases h with
  | whole digits => exact digits.nonempty
  | point | exponent | pointExponent => simp

/-- The characters that numerals are made of. -/
theorem mem {cs : List Char} (h : Numeral cs) {c : Char} (hc : c ∈ cs) :
    Decimal.isDigit 10 c = true ∨ c = '.' ∨ c = 'e' ∨ c = '+' ∨ c = '-' := by
  cases h with
  | whole digits => exact Or.inl (digits.digits c hc)
  | point digits fraction =>
    rcases List.mem_append.mp hc with hc | hc
    · exact Or.inl (digits.digits c hc)
    · rcases List.mem_cons.mp hc with rfl | hc
      · simp
      · exact Or.inl (fraction.digits c hc)
  | exponent digits isSign exponent =>
    rcases List.mem_append.mp hc with hc | hc
    · exact Or.inl (digits.digits c hc)
    · rcases List.mem_cons.mp hc with rfl | hc
      · simp
      · rcases List.mem_cons.mp hc with rfl | hc
        · rcases isSign with rfl | rfl <;> simp
        · exact Or.inl (exponent.digits c hc)
  | pointExponent digits fraction isSign exponent =>
    simp only [List.mem_append, List.mem_cons] at hc
    rcases hc with hc | rfl | hc | rfl | rfl | hc
    · exact Or.inl (digits.digits c hc)
    · simp
    · exact Or.inl (fraction.digits c hc)
    · simp
    · rcases isSign with rfl | rfl <;> simp
    · exact Or.inl (exponent.digits c hc)

/-- No character of a numeral is an underscore, a capital letter or one of the letters
with a meaning of their own. -/
theorem plain {cs : List Char} (h : Numeral cs) {c : Char} (hc : c ∈ cs) :
    c ≠ '_' ∧ Text.lowerChar c = c ∧ c ≠ 'j' ∧ c ≠ 'x' ∧ c ≠ 'o' ∧ c ≠ 'b' := by
  rcases h.mem hc with hdigit | rfl | rfl | rfl | rfl
  · obtain ⟨hlow, hhigh⟩ := Decimal.isDigit_ten_iff.mp hdigit
    refine ⟨?_, ?_, ?_, ?_, ?_, ?_⟩
    · rintro rfl
      exact absurd hhigh (by decide)
    · exact Text.lowerChar_of_isDigit hdigit
    all_goals
      rintro rfl
      exact absurd hhigh (by decide)
  all_goals decide

theorem normalise {cs : List Char} (h : Numeral cs) : Number.normalise cs = cs := by
  have hfilter : cs.filter (fun c => c != '_') = cs :=
    List.filter_eq_self.mpr fun c hc => by simpa using (h.plain hc).1
  have hmap : cs.map Text.lowerChar = cs :=
    (List.map_congr_left fun c hc => (h.plain hc).2.1).trans (List.map_id cs)
  rw [Number.normalise, hfilter, hmap]

/-- A numeral announces no radix. -/
theorem splitRadix? {cs : List Char} (h : Numeral cs) : Number.splitRadix? cs = none := by
  unfold Number.splitRadix?
  split
  · exact absurd rfl (h.plain (c := 'x') (by simp)).2.2.2.1
  · exact absurd rfl (h.plain (c := 'o') (by simp)).2.2.2.2.1
  · exact absurd rfl (h.plain (c := 'b') (by simp)).2.2.2.2.2
  · rfl

/-- The value of a numeral is read from it as it stands. -/
theorem read {cs : List Char} (h : Numeral cs) {v : Literal}
    (hvalue : Number.value? cs = some v) : Number.read (String.ofList cs) = .ok v := by
  have hlast : (cs.getLast? == some 'j') = false := by
    rw [beq_eq_false_iff_ne]
    intro hj
    exact (h.plain (List.mem_of_getLast? hj)).2.2.1 rfl
  rw [Number.read, String.toList_ofList, h.normalise]
  simp only [hlast, Bool.false_eq_true, if_false, hvalue]

end Numeral

namespace Number

/-- A numeral with a point or an exponent is the number that its decimal is rounded to. -/
theorem value?_float {cs : List Char} (h : Numeral cs) (hmark : '.' ∈ cs ∨ 'e' ∈ cs)
    {x : Binary64} {d : Decimal} (hread : Decimal.read? cs = some (false, d))
    (hpattern : Binary64.patternOfDecimal d = x.magnitude) (hfinite : x.isFinite = true)
    (hsign : x.isNegative = false) : value? cs = some (.float x) := by
  have hany : cs.any (fun c => c == '.' || c == 'e') = true := by
    rw [List.any_eq_true]
    rcases hmark with hmark | hmark
    · exact ⟨_, hmark, by decide⟩
    · exact ⟨_, hmark, by decide⟩
  have hof : Binary64.ofDecimal false d = x := by
    rw [Binary64.ofDecimal, hpattern, Binary64.ofPattern_magnitude hsign]
  rw [value?, h.splitRadix?]
  simp only [hany, if_true, hread, Option.bind_some, hof, hfinite]

/-- **A floating-point number that is written reads back.** -/
theorem read_written_float {x : Binary64} (hfinite : x.isFinite = true)
    (hsign : x.isNegative = false) :
    Numeral (FloatStyle.source.write x) ∧
      read (String.ofList (FloatStyle.source.write x)) = .ok (.float x) := by
  obtain ⟨hrow, hvalue⟩ := Digits.ofDecimal_spec (x.shortest FloatStyle.source.tie)
  have hpattern : Binary64.patternOfDecimal (x.shortestDigits FloatStyle.source.tie).decimal =
      x.magnitude := by
    rw [Binary64.shortestDigits, hvalue, Binary64.patternOfDecimal_shortest _ hfinite]
  have hwrite : FloatStyle.source.write x = (x.shortestDigits FloatStyle.source.tie).positional ∨
      FloatStyle.source.write x = (x.shortestDigits FloatStyle.source.tie).scientific .source := by
    rw [FloatStyle.write, hsign]
    simp only [Bool.false_eq_true, if_false]
    split
    · exact Or.inl rfl
    · exact Or.inr rfl
  rcases hwrite with hwrite | hwrite
  · rw [hwrite]
    obtain ⟨hnumeral, hpoint, d, hread, hd⟩ := Digits.read?_positional hrow
    exact ⟨hnumeral, hnumeral.read
      (value?_float hnumeral (Or.inl hpoint) hread (hd.trans hpattern) hfinite hsign)⟩
  · rw [hwrite]
    obtain ⟨hnumeral, hmark, d, hread, hd⟩ := Digits.read?_scientific hrow
    exact ⟨hnumeral, hnumeral.read
      (value?_float hnumeral (Or.inr hmark) hread (hd.trans hpattern) hfinite hsign)⟩

/-- A row of digits is a whole number, unless it starts with a zero and is not zero. -/
theorem value?_row {cs : List Char} (h : DigitRow cs) :
    value? cs =
      if cs.head? = some '0' ∧ (cs.any fun c => Decimal.digitValue c != 0) = true then none
      else wholeNumber? (Int.ofNat (Decimal.ofDigits 10 cs)) := by
  have hplain : (cs.any fun c => c == '.' || c == 'e') = false := by
    rw [List.any_eq_false]
    intro c hc heq
    rcases (by simpa using heq : c = '.' ∨ c = 'e') with rfl | rfl
    · exact absurd (h.digits '.' hc) (by decide)
    · exact absurd (h.digits 'e' hc) (by decide)
  have hpadded : (cs.head? == some '0' && cs.any fun c => c != '0') = true ↔
      cs.head? = some '0' ∧ (cs.any fun c => Decimal.digitValue c != 0) = true := by
    simp [Decimal.digitValue_eq_zero_iff]
  rw [value?, (Numeral.whole h).splitRadix?]
  simp only [hplain, hpadded, h.readInt?, Option.bind_some, Bool.false_eq_true, if_false]

/-- The digits of a number start with a zero only if it is zero. -/
theorem value?_digits (n : Nat) : value? (Decimal.digits n) = wholeNumber? n := by
  have hplain : ¬ ((Decimal.digits n).head? = some '0' ∧
      ((Decimal.digits n).any fun c => Decimal.digitValue c != 0) = true) := by
    by_cases hn : n = 0
    · subst hn
      decide
    · exact fun hpadded => Decimal.head?_digits_ne_zero hn hpadded.1
  rw [value?_row (DigitRow.digits_row n), if_neg hplain, Decimal.ofDigits_digits]
  rfl

/-- **A whole number that is written reads back.** -/
theorem read_written_int {n : Int64} (h : 0 ≤ n.toInt) :
    Numeral (toString n.toInt).toList ∧ read (toString n.toInt) = .ok (.int n) := by
  obtain ⟨m, hm⟩ := Int.eq_ofNat_of_zero_le h
  have htext : toString n.toInt = String.ofList (Decimal.digits m) := by
    rw [hm]
    exact Nat.toString_eq_ofList_toDigits
  have hnumeral : Numeral (Decimal.digits m) := .whole (DigitRow.digits_row m)
  have hbounds : n.toInt ≤ 9223372036854775807 := Int64.toInt_le n
  have hwhole : wholeNumber? m = some (.int n) := by
    rw [wholeNumber?, if_pos]
    · rw [← hm, Int64.ofInt_toInt]
    · simp only [Bool.and_eq_true, decide_eq_true_eq]
      omega
  rw [htext, String.toList_ofList]
  exact ⟨hnumeral, hnumeral.read (by rw [value?_digits, hwhole])⟩

end Number
end SlotTree

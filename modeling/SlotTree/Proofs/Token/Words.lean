import Mathlib.Data.List.TakeWhile
import SlotTree.Proofs.Decimal.Numeral
import SlotTree.Token.Lexeme

/-!
# Words and what they are read as

The lexical rules are tried in order and most of them look as far ahead as they can, so
what a text starts with depends on what comes behind.  In written source a word is
followed by a bracket, a comma, a colon, an equals sign, a blank, a line end or nothing
(`Delimited`), and in front of these every word is read as what it was written for: a
name as that name and a numeral as a number with that text.

Each case has to show that the rules before its own do not apply.  For the layout rules
the first character decides, for strings the first character that cannot belong to a name
(`stringOpening?_eq_none`), and for numbers the first one again.
-/

namespace SlotTree

/-- What is checked for every member of a list holds for every member. -/
theorem forall_mem_of_all {α : Type} {p : α → Prop} [DecidablePred p] {l : List α}
    (h : (l.all fun x => decide (p x)) = true) : ∀ x ∈ l, p x := by
  simpa using h
namespace Lexeme

open Text (isNameStart isNameContinue leadingName lowerChar)

/-! ## Delimiters -/

/-- The characters that stand behind words of written source. -/
def delimiters : List Char := ['(', ')', ',', ':', '=', '[', ']', ' ', '\n']

/-- A word can end in front of the text. -/
def Delimited (rest : List Char) : Prop := ∀ c ∈ rest.head?, c ∈ delimiters

theorem Delimited.nil : Delimited [] := by simp [Delimited]

theorem Delimited.cons {c : Char} {rest : List Char} (h : c ∈ delimiters) :
    Delimited (c :: rest) := by
  intro d hd
  obtain rfl : c = d := by simpa using hd
  exact h

/-- Delimiters belong to no name and no number, and are no quotes. -/
theorem of_mem_delimiters {c : Char} (h : c ∈ delimiters) :
    isNameContinue c = false ∧ Decimal.isDigit 10 c = false ∧ c ≠ '_' ∧ c ≠ '.' ∧
      (c == 'e' || c == 'E') = false ∧ (c == 'j' || c == 'J') = false ∧ radixOf? c = none ∧
      c ≠ '"' ∧ c ≠ '\'' := by
  revert c
  apply forall_mem_of_all
  decide

/-! ## The rules that do not apply -/

/-- The characters that layout starts with. -/
def isLayout (c : Char) : Bool := isSpace c || c == '\\' || c == '#' || isLineEndChar c

/-- Where no layout starts the first rules do not apply. -/
theorem next_of_not_layout {c : Char} {cs : List Char} (h : isLayout c = false) :
    next (c :: cs) =
      match [stringRule, numberRule, nameRule, operatorRule].findSome? fun rule =>
        rule (c :: cs) with
      | some outcome => outcome
      | none => .error (.unrecognisedToken (String.ofList ((c :: cs).take 1))) := by
  simp only [isLayout, Bool.or_eq_false_iff] at h
  obtain ⟨⟨⟨hspace, hbackslash⟩, hhash⟩, hend⟩ := h
  have hblank : blankRule (c :: cs) = none := by
    simp [blankRule, found, hspace]
  have hcontinuation : continuationRule (c :: cs) = none := by
    rw [continuationRule, leadingContinuation]
    · rfl
    · rintro ds ⟨⟩
      exact absurd hbackslash (by decide)
  have hcomment : commentRule (c :: cs) = none := by
    rw [commentRule, leadingComment]
    · rfl
    · rintro ds ⟨⟩
      exact absurd hhash (by decide)
  have hline : lineEndRule (c :: cs) = none := by
    rw [lineEndRule, leadingLineEnd]
    · rfl
    · rintro ds ⟨⟩
      exact absurd hend (by decide)
    · rintro ds ⟨⟩
      exact absurd hend (by decide)
  have hrules : (rules.findSome? fun rule => rule (c :: cs)) =
      [stringRule, numberRule, nameRule, operatorRule].findSome? fun rule => rule (c :: cs) := by
    simp only [rules, List.findSome?_cons, hblank, hcontinuation, hcomment, hline]
  have hnext : next (c :: cs) =
      match rules.findSome? fun rule => rule (c :: cs) with
      | some outcome => outcome
      | none => .error (.unrecognisedToken (String.ofList ((c :: cs).take 1))) := rfl
  rw [hnext, hrules]

theorem leadingQuote_eq_nil {cs : List Char} (h : ∀ c ∈ cs.head?, c ≠ '"' ∧ c ≠ '\'') :
    leadingQuote cs = [] := by
  unfold leadingQuote
  split
  all_goals first | rfl | exact absurd rfl (h _ rfl).1 | exact absurd rfl (h _ rfl).2

/-- The marks of strings are made of letters. -/
theorem isNameContinue_of_lowerChar {c d : Char} (h : lowerChar c = d)
    (hd : d ∈ ['r', 'b', 'f', 'u']) : isNameContinue c = true := by
  by_cases hcapital : (65 ≤ c.toNat && c.toNat ≤ 90) = true
  · simp only [Bool.and_eq_true, decide_eq_true_eq] at hcapital
    simp only [isNameContinue, Text.isAsciiLetter]
    rw [if_pos (by omega)]
    simp [hcapital]
  · rw [lowerChar, if_neg hcapital] at h
    subst h
    revert hd
    simp only [List.mem_cons, List.not_mem_nil, or_false]
    rintro (rfl | rfl | rfl | rfl) <;> decide

/-- No string starts where the first character that cannot belong to a name is no
quote. -/
theorem stringOpening?_eq_none {cs : List Char}
    (h : ∀ c ∈ (cs.dropWhile isNameContinue).head?, c ≠ '"' ∧ c ≠ '\'') :
    stringOpening? cs = none := by
  rw [stringOpening?, List.findSome?_eq_none_iff]
  intro mark hmark
  have hall : ∀ mark ∈ marks, mark.all ['r', 'b', 'f', 'u'].contains = true := by decide
  have hletters : ∀ d ∈ mark, d ∈ ['r', 'b', 'f', 'u'] := by
    intro d hd
    exact List.contains_iff_mem.mp (List.all_eq_true.mp (hall mark hmark) d hd)
  suffices hquote : (cs.take mark.length).map lowerChar = mark →
      leadingQuote (cs.drop mark.length) = [] by
    simp only
    rw [if_neg]
    simp only [Bool.and_eq_true, beq_iff_eq, Bool.not_eq_true', not_and]
    intro hmap
    rw [hquote hmap]
    decide
  intro hmap
  have hnames : ∀ c ∈ cs.take mark.length, isNameContinue c = true := by
    intro c hc
    refine isNameContinue_of_lowerChar rfl (hletters _ ?_)
    rw [← hmap]
    exact List.mem_map_of_mem hc
  refine leadingQuote_eq_nil fun c hc => ?_
  obtain ⟨rest, hrest⟩ := List.head?_eq_some_iff.mp hc
  by_cases hname : isNameContinue c = true
  · constructor <;> rintro rfl <;> exact absurd hname (by decide)
  · refine h c ?_
    rw [← List.take_append_drop mark.length cs, List.dropWhile_append_of_pos hnames, hrest,
      List.dropWhile_cons_of_neg hname]
    rfl

theorem stringRule_eq_none {cs : List Char}
    (h : ∀ c ∈ (cs.dropWhile isNameContinue).head?, c ≠ '"' ∧ c ≠ '\'') :
    stringRule cs = none := by
  rw [stringRule, stringOpening?_eq_none h]
  rfl

/-- A number starts with a digit or a point. -/
theorem numberRule_eq_none {c : Char} {cs : List Char} (hdigit : Decimal.isDigit 10 c = false)
    (hpoint : c ≠ '.') : numberRule (c :: cs) = none := by
  have hradix : leadingRadix (c :: cs) = [] := by
    unfold leadingRadix
    split
    · next heq =>
      obtain ⟨rfl, -⟩ := List.cons.inj heq
      exact absurd hdigit (by decide)
    · rfl
  have hrun : decimalRun (c :: cs) = [] := by
    rw [decimalRun, if_neg (by simp [hdigit])]
  have hpoints : leadingPoint (c :: cs) = [] := by
    simp only [leadingPoint, hrun, List.length_nil, List.drop_zero]
    split
    · next heq =>
      obtain ⟨rfl, -⟩ := List.cons.inj heq
      exact absurd rfl hpoint
    · rfl
  simp [numberRule, leadingNumber, hradix, hpoints, leadingWhole, hrun, found]

/-! ## Names -/

/-- The text is a name, reserved or not: it starts as a name does and goes on as a name
does. -/
def IsWord (cs : List Char) : Prop :=
  ∃ c ds, cs = c :: ds ∧ isNameStart c = true ∧ ∀ d ∈ ds, isNameContinue d = true

/-- A name is what a name takes from the start of itself. -/
theorem isWord_iff {cs : List Char} : IsWord cs ↔ cs ≠ [] ∧ Text.leadingName cs = cs := by
  constructor
  · rintro ⟨c, ds, rfl, hc, hds⟩
    refine ⟨by simp, ?_⟩
    rw [Text.leadingName, if_pos hc, List.takeWhile_eq_self_iff.mpr hds]
  · rintro ⟨hne, hname⟩
    obtain ⟨c, ds, rfl⟩ := List.exists_cons_of_ne_nil hne
    rw [Text.leadingName] at hname
    split at hname
    · next hc => exact ⟨c, ds, rfl, hc, List.takeWhile_eq_self_iff.mp (List.cons.inj hname).2⟩
    · cases hname

instance (cs : List Char) : Decidable (IsWord cs) := decidable_of_iff _ isWord_iff.symm

theorem mem_of_isLayout {c : Char} (h : isLayout c = true) :
    c ∈ [' ', '\t', '\x0c', '\\', '#', '\r', '\n'] := by
  simp only [isLayout, isSpace, isLineEndChar, Bool.or_eq_true, beq_iff_eq] at h
  rcases h with ((((rfl | rfl) | h) | rfl) | rfl) | rfl | rfl
  all_goals try simp
  obtain rfl : c = '\x0c' := Char.toNat_inj.mp h
  simp

/-- What starts a name is no layout, no digit, no point and no quote. -/
theorem of_isNameStart {c : Char} (h : isNameStart c = true) :
    isLayout c = false ∧ Decimal.isDigit 10 c = false ∧ c ≠ '.' ∧ c ≠ '"' ∧ c ≠ '\'' := by
  refine ⟨?_, ?_, ?_, ?_, ?_⟩
  · rw [Bool.eq_false_iff]
    intro hlayout
    have hnone : ∀ d ∈ [' ', '\t', '\x0c', '\\', '#', '\r', '\n'], isNameStart d = false :=
      forall_mem_of_all (by decide)
    rw [hnone c (mem_of_isLayout hlayout)] at h
    cases h
  · rw [Bool.eq_false_iff]
    intro hdigit
    obtain ⟨hlow, hhigh⟩ := Decimal.isDigit_ten_iff.mp hdigit
    rw [isNameStart, if_pos (by omega)] at h
    simp only [Text.isAsciiLetter, Bool.or_eq_true, Bool.and_eq_true, decide_eq_true_eq,
      beq_iff_eq] at h
    rcases h with h | rfl
    · omega
    · exact absurd hhigh (by decide)
  all_goals
    rintro rfl
    exact absurd h (by decide)

/-- The characters of a name are no quotes. -/
theorem of_isNameContinue {c : Char} (h : isNameContinue c = true) : c ≠ '"' ∧ c ≠ '\'' := by
  constructor <;> rintro rfl <;> exact absurd h (by decide)

/-- A name is taken whole in front of a delimiter. -/
theorem dropWhile_word {ds rest : List Char} (hds : ∀ d ∈ ds, isNameContinue d = true)
    (hrest : Delimited rest) :
    (ds ++ rest).takeWhile isNameContinue = ds ∧
      (ds ++ rest).dropWhile isNameContinue = rest := by
  rw [List.takeWhile_append_of_pos hds, List.dropWhile_append_of_pos hds]
  cases rest with
  | nil => simp
  | cons c rest =>
    have hc := (of_mem_delimiters (hrest c rfl)).1
    simp [hc]

/-- What stops a name within a word and a delimiter behind it. -/
theorem mem_of_dropWhile {cs rest : List Char} (hrest : Delimited rest) {d : Char}
    (hd : d ∈ ((cs ++ rest).dropWhile isNameContinue).head?) : d ∈ cs ∨ d ∈ rest.head? := by
  induction cs with
  | nil =>
    right
    have hnone : ∀ d ∈ ([] : List Char), isNameContinue d = true := by simp
    rwa [(dropWhile_word hnone hrest).2] at hd
  | cons c cs ih =>
    rw [List.cons_append] at hd
    by_cases hc : isNameContinue c = true
    · rw [List.dropWhile_cons_of_pos hc] at hd
      rcases ih hd with hmem | hmem
      · exact Or.inl (List.mem_cons_of_mem c hmem)
      · exact Or.inr hmem
    · rw [List.dropWhile_cons_of_neg hc] at hd
      obtain rfl : c = d := by simpa using hd
      exact Or.inl List.mem_cons_self

/-- **A name is read as that name.** -/
theorem next_word {cs rest : List Char} (h : IsWord cs) (hrest : Delimited rest) :
    next (cs ++ rest) =
      .ok ⟨.token (nameKind (String.ofList cs)) (String.ofList cs), cs⟩ := by
  obtain ⟨c, ds, rfl, hc, hds⟩ := h
  obtain ⟨hlayout, hdigit, hpoint, hquotes⟩ := of_isNameStart hc
  obtain ⟨htake, -⟩ := dropWhile_word hds hrest
  have hstring : stringRule (c :: (ds ++ rest)) = none := by
    refine stringRule_eq_none fun d hd => ?_
    rw [← List.cons_append] at hd
    rcases mem_of_dropWhile hrest hd with hmem | hmem
    · rcases List.mem_cons.mp hmem with rfl | hmem
      · exact hquotes
      · exact of_isNameContinue (hds d hmem)
    · exact (of_mem_delimiters (hrest d hmem)).2.2.2.2.2.2.2
  have hnumber : numberRule (c :: (ds ++ rest)) = none := numberRule_eq_none hdigit hpoint
  have hname : leadingName (c :: (ds ++ rest)) = c :: ds := by
    rw [leadingName, if_pos hc, htake]
  rw [List.cons_append, next_of_not_layout hlayout]
  simp [hstring, hnumber, nameRule, hname, found]

/-! ## Numerals -/

/-- A row of digits is taken whole where neither a digit nor an underscore follows. -/
theorem digitRun_append {ds rest : List Char} (hds : ∀ d ∈ ds, Decimal.isDigit 10 d = true)
    (hrest : ∀ c ∈ rest.head?, Decimal.isDigit 10 c = false ∧ c ≠ '_') :
    digitRun (Decimal.isDigit 10) (ds ++ rest) = ds := by
  induction ds with
  | nil =>
    cases rest with
    | nil => rfl
    | cons c rest =>
      obtain ⟨hdigit, hunderscore⟩ := hrest c rfl
      have hc : (c == '_') = false := by simpa using hunderscore
      rw [List.nil_append, digitRun.eq_def]
      simp [hdigit, hc]
  | cons d ds ih =>
    rw [List.cons_append, digitRun.eq_def]
    simp only [hds d List.mem_cons_self, if_true]
    rw [ih fun e he => hds e (List.mem_cons_of_mem d he)]

theorem decimalRun_append {ds rest : List Char} (h : DigitRow ds)
    (hrest : ∀ c ∈ rest.head?, Decimal.isDigit 10 c = false ∧ c ≠ '_') :
    decimalRun (ds ++ rest) = ds := by
  obtain ⟨d, ds, rfl⟩ := List.exists_cons_of_ne_nil h.nonempty
  rw [List.cons_append, decimalRun, if_pos (h.digits d List.mem_cons_self),
    digitRun_append (fun e he => h.digits e (List.mem_cons_of_mem d he)) hrest]

theorem Delimited.endsDigits {rest : List Char} (h : Delimited rest) :
    ∀ c ∈ rest.head?, Decimal.isDigit 10 c = false ∧ c ≠ '_' := by
  intro c hc
  obtain ⟨-, hdigit, hunderscore, -⟩ := of_mem_delimiters (h c hc)
  exact ⟨hdigit, hunderscore⟩

/-- A delimiter starts neither an exponent nor an imaginary mark. -/
theorem Delimited.suffixes {rest : List Char} (h : Delimited rest) :
    leadingExponent rest = [] ∧ leadingImaginary rest = [] := by
  cases rest with
  | nil => exact ⟨rfl, rfl⟩
  | cons c rest =>
    obtain ⟨-, -, -, -, hexponent, himaginary, -⟩ := of_mem_delimiters (h c rfl)
    constructor
    · rw [leadingExponent.eq_def]
      simp [hexponent]
    · rw [leadingImaginary]
      simp [himaginary]

theorem withSuffixes_append (ds : List Char) {rest : List Char} (h : Delimited rest) :
    withSuffixes ds (ds ++ rest) = ds := by
  obtain ⟨hexponent, himaginary⟩ := h.suffixes
  simp [withSuffixes, hexponent, himaginary]

theorem leadingExponent_append {es rest : List Char} {sign : Char} (hsign : IsSign sign)
    (he : DigitRow es) (h : Delimited rest) :
    leadingExponent ('e' :: sign :: (es ++ rest)) = 'e' :: sign :: es := by
  have hrun := decimalRun_append he h.endsDigits
  have hnonempty : es.isEmpty = false := by simpa using he.nonempty
  have hmark : (sign == '+' || sign == '-') = true := by
    rcases hsign with rfl | rfl <;> rfl
  rw [leadingExponent.eq_def]
  simp [hmark, hrun, hnonempty]

theorem withSuffixes_exponent (ds : List Char) {es rest : List Char} {sign : Char}
    (hsign : IsSign sign) (he : DigitRow es) (h : Delimited rest) :
    withSuffixes ds (ds ++ 'e' :: sign :: (es ++ rest)) = ds ++ 'e' :: sign :: es := by
  have hexponent := leadingExponent_append hsign he h
  have hdrop : (ds ++ 'e' :: sign :: (es ++ rest)).drop (ds.length + (es.length + 2)) = rest := by
    rw [← List.drop_drop, List.drop_left]
    simp
  simp [withSuffixes, hexponent, hdrop, h.suffixes]

/-- Digits with a point behind them are a number with a point. -/
theorem leadingPoint_of_point {ds fs tail : List Char} (hd : DigitRow ds) (hf : DigitRow fs)
    (htail : ∀ c ∈ tail.head?, Decimal.isDigit 10 c = false ∧ c ≠ '_') :
    leadingPoint (ds ++ '.' :: (fs ++ tail)) =
      withSuffixes (ds ++ '.' :: fs) (ds ++ '.' :: (fs ++ tail)) := by
  have hwhole : decimalRun (ds ++ '.' :: (fs ++ tail)) = ds :=
    decimalRun_append hd (by simp; decide)
  have hfraction := decimalRun_append hf htail
  have hnonempty : ds.isEmpty = false := by simpa using hd.nonempty
  simp [leadingPoint, hwhole, hfraction, hnonempty]

theorem leadingPoint_eq_nil {ds tail : List Char} (hd : DigitRow ds)
    (htail : ∀ c ∈ tail.head?, Decimal.isDigit 10 c = false ∧ c ≠ '_')
    (hpoint : tail.head? ≠ some '.') : leadingPoint (ds ++ tail) = [] := by
  have hwhole := decimalRun_append hd htail
  simp only [leadingPoint, hwhole, List.drop_left]
  split
  · exact absurd rfl hpoint
  · rfl

theorem leadingWhole_append {ds tail : List Char} (hd : DigitRow ds)
    (htail : ∀ c ∈ tail.head?, Decimal.isDigit 10 c = false ∧ c ≠ '_') :
    leadingWhole (ds ++ tail) = withSuffixes ds (ds ++ tail) := by
  have hwhole := decimalRun_append hd htail
  have hnonempty : ds.isEmpty = false := by simpa using hd.nonempty
  simp [leadingWhole, hwhole, hnonempty]

theorem Delimited.head?_ne_point {rest : List Char} (h : Delimited rest) :
    rest.head? ≠ some '.' := by
  intro hhead
  exact (of_mem_delimiters (h '.' hhead)).2.2.2.1 rfl

/-- No character of a numeral names a radix. -/
theorem radixOf?_of_mem {cs : List Char} (h : Numeral cs) {c : Char} (hc : c ∈ cs) :
    radixOf? c = none := by
  rcases h.mem hc with hdigit | rfl | rfl | rfl | rfl
  · obtain ⟨hlow, hhigh⟩ := Decimal.isDigit_ten_iff.mp hdigit
    have hne : ∀ d ∈ ['x', 'X', 'o', 'O', 'b', 'B'], (c == d) = false := by
      intro d hd
      rw [beq_eq_false_iff_ne]
      rintro rfl
      revert hd hhigh
      simp only [List.mem_cons, List.not_mem_nil, or_false]
      rintro hhigh (rfl | rfl | rfl | rfl | rfl | rfl) <;> exact absurd hhigh (by decide)
    simp [radixOf?, hne]
  all_goals decide

theorem leadingRadix_numeral {cs rest : List Char} (h : Numeral cs) (hrest : Delimited rest) :
    leadingRadix (cs ++ rest) = [] := by
  unfold leadingRadix
  split
  · next c tail heq =>
    -- the second character belongs to the numeral or is a delimiter
    have hradix : radixOf? c = none := by
      match cs, h, heq with
      | [], h, _ => exact absurd rfl h.ne_nil
      | [_], _, heq =>
        obtain ⟨-, rfl⟩ := List.cons.inj heq
        exact (of_mem_delimiters (hrest c rfl)).2.2.2.2.2.2.1
      | _ :: d :: ds, h, heq =>
        obtain ⟨-, heq⟩ := List.cons.inj heq
        obtain ⟨rfl, -⟩ := List.cons.inj heq
        exact radixOf?_of_mem h (by simp)
    rw [hradix]
  · rfl

/-- The number at the start of a text is the numeral that stands there. -/
theorem leadingNumber_numeral {cs rest : List Char} (h : Numeral cs) (hrest : Delimited rest) :
    leadingNumber (cs ++ rest) = cs := by
  have hradix := leadingRadix_numeral h hrest
  have hnonempty : cs.isEmpty = false := by simpa using h.ne_nil
  suffices hsuffices : leadingPoint (cs ++ rest) = cs ∨
      leadingPoint (cs ++ rest) = [] ∧ leadingWhole (cs ++ rest) = cs by
    rcases hsuffices with hpoint | ⟨hpoint, hwhole⟩
    · simp [leadingNumber, hradix, hpoint, hnonempty]
    · simp [leadingNumber, hradix, hpoint, hwhole]
  have hexponent : ∀ (sign : Char) (tail : List Char), ∀ c ∈ ('e' :: sign :: tail).head?,
      Decimal.isDigit 10 c = false ∧ c ≠ '_' := by
    simp
    decide
  cases h with
  | whole digits =>
    right
    rw [leadingPoint_eq_nil digits hrest.endsDigits hrest.head?_ne_point,
      leadingWhole_append digits hrest.endsDigits, withSuffixes_append _ hrest]
    exact ⟨rfl, rfl⟩
  | @point ds fs digits fraction =>
    left
    rw [List.append_assoc, List.cons_append,
      leadingPoint_of_point digits fraction hrest.endsDigits]
    have hsuffixes := withSuffixes_append (ds ++ '.' :: fs) hrest
    rwa [List.append_assoc, List.cons_append] at hsuffixes
  | @exponent ds es sign digits isSign exponent =>
    right
    rw [List.append_assoc, List.cons_append, List.cons_append,
      leadingPoint_eq_nil digits (hexponent sign _) (by simp),
      leadingWhole_append digits (hexponent sign _), withSuffixes_exponent _ isSign exponent hrest]
    exact ⟨rfl, rfl⟩
  | @pointExponent ds fs es sign digits fraction isSign exponent =>
    left
    have hsuffixes := withSuffixes_exponent (ds ++ '.' :: fs) isSign exponent hrest
    simp only [List.append_assoc, List.cons_append] at hsuffixes ⊢
    rw [leadingPoint_of_point digits fraction (hexponent sign _), hsuffixes]

/-- A numeral starts with a digit. -/
theorem head_numeral {cs : List Char} (h : Numeral cs) :
    ∃ c ds, cs = c :: ds ∧ Decimal.isDigit 10 c = true := by
  have hrow : ∀ {xs : List Char} (ys : List Char), DigitRow xs →
      ∃ c ds, xs ++ ys = c :: ds ∧ Decimal.isDigit 10 c = true := by
    intro xs ys hxs
    obtain ⟨c, ds, rfl⟩ := List.exists_cons_of_ne_nil hxs.nonempty
    exact ⟨c, ds ++ ys, rfl, hxs.digits c List.mem_cons_self⟩
  cases h with
  | whole digits => simpa using hrow [] digits
  | point digits _ => exact hrow _ digits
  | exponent digits _ _ => exact hrow _ digits
  | pointExponent digits _ _ _ => exact hrow _ digits

/-- A digit is no layout, and it may go on a name. -/
theorem isLayout_of_isDigit {c : Char} (h : Decimal.isDigit 10 c = true) :
    isLayout c = false ∧ isNameContinue c = true := by
  obtain ⟨hlow, hhigh⟩ := Decimal.isDigit_ten_iff.mp h
  constructor
  · rw [Bool.eq_false_iff]
    intro hlayout
    have hnone : ∀ d ∈ [' ', '\t', '\x0c', '\\', '#', '\r', '\n'],
        Decimal.isDigit 10 d = false := forall_mem_of_all (by decide)
    rw [hnone c (mem_of_isLayout hlayout)] at h
    cases h
  · rw [isNameContinue, if_pos (by omega), h]
    simp

/-- **A numeral is read as a number with that text.** -/
theorem next_numeral {cs rest : List Char} (h : Numeral cs) (hrest : Delimited rest) :
    next (cs ++ rest) = .ok ⟨.token .number (String.ofList cs), cs⟩ := by
  obtain ⟨c, ds, hcs, hc⟩ := head_numeral h
  obtain ⟨hlayout, hname⟩ := isLayout_of_isDigit hc
  have hstring : stringRule (cs ++ rest) = none := by
    refine stringRule_eq_none fun d hd => ?_
    rcases mem_of_dropWhile hrest hd with hmem | hmem
    · rcases h.mem hmem with hdigit | rfl | rfl | rfl | rfl
      · exact of_isNameContinue (isLayout_of_isDigit hdigit).2
      all_goals decide
    · exact (of_mem_delimiters (hrest d hmem)).2.2.2.2.2.2.2
  have hnonempty : cs.isEmpty = false := by simpa using h.ne_nil
  have hnumber : numberRule (cs ++ rest) =
      some (.ok ⟨.token .number (String.ofList cs), cs⟩) := by
    simp [numberRule, leadingNumber_numeral h hrest, found, hnonempty]
  have htext : cs ++ rest = c :: (ds ++ rest) := by rw [hcs, List.cons_append]
  rw [htext, next_of_not_layout hlayout, ← htext]
  simp [hstring, hnumber]

/-! ## Brackets and layout -/

/-- The brackets and delimiters of written source, with the kinds of their tokens. -/
def brackets : List (Char × TokenKind) :=
  [('(', .openParen), (')', .closeParen), ('[', .openBracket), (']', .closeBracket),
    (',', .comma), (':', .colon), ('=', .assignment)]

/-- A bracket starts neither layout, nor a string, nor a number, nor a name. -/
theorem of_mem_brackets {c : Char} {kind : TokenKind} (h : (c, kind) ∈ brackets) :
    isLayout c = false ∧ isNameContinue c = false ∧ isNameStart c = false ∧
      Decimal.isDigit 10 c = false ∧ c ≠ '.' ∧ c ≠ '"' ∧ c ≠ '\'' := by
  have hall : ∀ row ∈ brackets, isLayout row.1 = false ∧ isNameContinue row.1 = false ∧
      isNameStart row.1 = false ∧ Decimal.isDigit 10 row.1 = false ∧ row.1 ≠ '.' ∧
      row.1 ≠ '"' ∧ row.1 ≠ '\'' := by decide
  exact hall _ h

/-- In front of anything but an equals sign a bracket is the first operator that fits. -/
theorem operatorRule_bracket {c : Char} {kind : TokenKind} {rest : List Char}
    (h : (c, kind) ∈ brackets) (hrest : rest.head? ≠ some '=') :
    operatorRule (c :: rest) = some (.ok ⟨.token kind (String.ofList [c]), [c]⟩) := by
  have hequals : ['='].isPrefixOf rest = false := by
    cases rest with
    | nil => rfl
    | cons d rest =>
      have hd : ¬ '=' = d := fun heq => hrest (by rw [heq]; rfl)
      simp [List.isPrefixOf, hd]
  simp only [brackets, List.mem_cons, Prod.mk.injEq, List.not_mem_nil, or_false] at h
  rcases h with ⟨rfl, rfl⟩ | ⟨rfl, rfl⟩ | ⟨rfl, rfl⟩ | ⟨rfl, rfl⟩ | ⟨rfl, rfl⟩ | ⟨rfl, rfl⟩ |
    ⟨rfl, rfl⟩
  all_goals simp [operatorRule, operators, List.find?, List.isPrefixOf, hequals]

/-- What starts neither layout, nor a string, nor a number, nor a name is an operator. -/
theorem next_of_operatorRule {c : Char} {rest : List Char} {outcome : Except Cause Lexeme}
    (hc : isLayout c = false ∧ isNameContinue c = false ∧ isNameStart c = false ∧
      Decimal.isDigit 10 c = false ∧ c ≠ '.' ∧ c ≠ '"' ∧ c ≠ '\'')
    (h : operatorRule (c :: rest) = some outcome) : next (c :: rest) = outcome := by
  obtain ⟨hlayout, hcontinue, hstart, hdigit, hpoint, hquotes⟩ := hc
  have hstring : stringRule (c :: rest) = none := by
    refine stringRule_eq_none fun d hd => ?_
    rw [List.dropWhile_cons_of_neg (by simp [hcontinue])] at hd
    obtain rfl : c = d := by simpa using hd
    exact hquotes
  have hnumber : numberRule (c :: rest) = none := numberRule_eq_none hdigit hpoint
  have hname : nameRule (c :: rest) = none := by
    simp [nameRule, leadingName, hstart, found]
  rw [next_of_not_layout hlayout]
  simp [hstring, hnumber, hname, h]

/-- **A bracket or delimiter is read as itself.** -/
theorem next_bracket {c : Char} {kind : TokenKind} {rest : List Char}
    (h : (c, kind) ∈ brackets) (hrest : rest.head? ≠ some '=') :
    next (c :: rest) = .ok ⟨.token kind (String.ofList [c]), [c]⟩ :=
  next_of_operatorRule (of_mem_brackets h) (operatorRule_bracket h hrest)

/-- One blank is trivia. -/
theorem next_blank {rest : List Char} (h : ∀ c ∈ rest.head?, isSpace c = false) :
    next (' ' :: rest) = .ok ⟨.trivia, [' ']⟩ := by
  have hblanks : rest.takeWhile isSpace = [] := by
    cases rest with
    | nil => rfl
    | cons c rest => simp [h c rfl]
  have hspace : isSpace ' ' = true := rfl
  simp [next, rules, blankRule, found, hspace, hblanks]

/-- A line feed is a line end. -/
theorem next_lineFeed (rest : List Char) : next ('\n' :: rest) = .ok ⟨.lineEnd, ['\n']⟩ := by
  have hspace : isSpace '\n' = false := rfl
  simp [next, rules, blankRule, continuationRule, commentRule, lineEndRule, found, hspace,
    leadingContinuation, leadingComment, leadingLineEnd]

/-! ## What a token can be -/

/-- The token that a text starts with is a string, a number, a name or an operator, and a
number or a name stands for what the text starts with. -/
theorem next_token_cases {cs chars : List Char} {kind : TokenKind} {text : String}
    (h : next cs = .ok ⟨.token kind text, chars⟩) :
    (∃ mark, kind = stringKind mark) ∨
      (kind = .number ∧ text = String.ofList (leadingNumber cs)) ∨
      (kind = nameKind text ∧ text = String.ofList (leadingName cs) ∧ leadingName cs ≠ []) ∨
      ∃ row ∈ operators, kind = row.2 := by
  unfold next at h
  split at h
  · next outcome hrule =>
    subst h
    obtain ⟨rule, hmem, hr⟩ := List.exists_of_findSome?_eq_some hrule
    simp only [rules, List.mem_cons, List.not_mem_nil, or_false] at hmem
    have hfound : ∀ {piece : Piece} {ds : List Char},
        found piece ds = some (.ok ⟨.token kind text, chars⟩) →
          piece = .token kind text ∧ ds ≠ [] := by
      intro piece ds hds
      unfold found at hds
      split at hds
      · cases hds
      · next hne =>
        simp only [Option.some.injEq, Except.ok.injEq, Lexeme.mk.injEq] at hds
        exact ⟨hds.1, by simpa using hne⟩
    rcases hmem with rfl | rfl | rfl | rfl | rfl | rfl | rfl | rfl
    · exact absurd (hfound hr).1 (by simp)
    · exact absurd (hfound hr).1 (by simp)
    · exact absurd (hfound hr).1 (by simp)
    · exact absurd (hfound hr).1 (by simp)
    · left
      unfold stringRule at hr
      obtain ⟨⟨mark, quote⟩, -, hr⟩ := Option.map_eq_some_iff.mp hr
      simp only at hr
      split at hr
      · cases hr
      · simp only [Except.ok.injEq, Lexeme.mk.injEq, Piece.token.injEq] at hr
        exact ⟨mark, hr.1.1.symm⟩
    · obtain ⟨hpiece, -⟩ := hfound hr
      obtain ⟨rfl, rfl⟩ := Piece.token.inj hpiece
      exact Or.inr (Or.inl ⟨rfl, rfl⟩)
    · obtain ⟨hpiece, hne⟩ := hfound hr
      obtain ⟨rfl, rfl⟩ := Piece.token.inj hpiece
      exact Or.inr (Or.inr (Or.inl ⟨rfl, rfl, hne⟩))
    · obtain ⟨row, hrow, hr⟩ := Option.map_eq_some_iff.mp hr
      simp only [Except.ok.injEq, Lexeme.mk.injEq, Piece.token.injEq] at hr
      exact Or.inr (Or.inr (Or.inr ⟨row, List.mem_of_find?_eq_some hrow, hr.1.1.symm⟩))
  · cases h

/-- No lexeme is a token that ends a line or the script. -/
theorem kind_ne_of_next {cs chars : List Char} {kind : TokenKind} {text : String}
    (h : next cs = .ok ⟨.token kind text, chars⟩) : kind ≠ .newline ∧ kind ≠ .eof := by
  rcases next_token_cases h with ⟨mark, rfl⟩ | ⟨rfl, -⟩ | ⟨rfl, -⟩ | ⟨row, hrow, rfl⟩
  · unfold stringKind
    split
    · decide
    · split <;> decide
  · decide
  · unfold nameKind
    split <;> simp
  · have hall : ∀ row ∈ operators, row.2 ≠ .newline ∧ row.2 ≠ .eof := by decide
    exact hall row hrow

end Lexeme
end SlotTree

import SlotTree.Proofs.Token.Extent

/-!
# A lexeme does not look past its line

What a text starts with does not change if a line feed and anything else is put behind the text
(`next_append_feed`).  Names, numbers, operators, blanks and comments all stop in front of a line
feed, whatever they come from, so that it makes no difference whether the text ends there or goes
on; in front of a carriage return they stop as well (`StopsAtLineEnd`).  A string may have line
feeds in it, but then its closing quote comes later still, and it is found in the same place.

Three things are not like that.  A lone backslash, a lone carriage return and a backslash in front
of a carriage return are no lexemes at the end of a text, and become the beginning of one when a
line feed follows.  They stay out of the statement because no rule applies to them as they are.
Where the line feed is there already, what follows it can be replaced without any exception
(`next_of_line`).
-/

namespace SlotTree
namespace Lexeme

open Text (isNameStart isNameContinue leadingName lowerChar)

theorem eq_of_isLineEndChar {e : Char} (h : isLineEndChar e = true) : e = '\r' ∨ e = '\n' := by
  simpa [isLineEndChar] using h

/-- What is found at the start of a text is the same if a line end and more follows the text. -/
def StopsAtLineEnd {α : Type} (f : List Char → α) : Prop :=
  ∀ {e : Char}, isLineEndChar e = true → ∀ cs rest, f (cs ++ e :: rest) = f cs

theorem stopsAtLineEnd_takeWhile {p : Char → Bool} (hreturn : p '\r' = false)
    (hfeed : p '\n' = false) : StopsAtLineEnd (List.takeWhile p) := by
  intro e he cs rest
  induction cs with
  | nil => rcases eq_of_isLineEndChar he with rfl | rfl <;> simp [hreturn, hfeed]
  | cons c cs ih => rw [List.cons_append, List.takeWhile_cons, List.takeWhile_cons, ih]

theorem isPrefixOf_append_lineEnd {e : Char} {xs : List Char} (h : e ∉ xs) (cs rest : List Char) :
    xs.isPrefixOf (cs ++ e :: rest) = xs.isPrefixOf cs := by
  induction xs generalizing cs with
  | nil => simp
  | cons x xs ih =>
    simp only [List.mem_cons, not_or] at h
    cases cs with
    | nil =>
      have hx : (x == e) = false := by simpa using Ne.symm h.1
      simp [List.isPrefixOf, hx]
    | cons c cs => rw [List.cons_append, List.isPrefixOf, List.isPrefixOf, ih h.2]

/-! ## Numbers -/

/-- A line end is no digit. -/
theorem isDigit_lineEnd {radix : Nat} (h : radix ≤ 16) {e : Char} (he : isLineEndChar e = true) :
    Decimal.isDigit radix e = false := by
  have hvalue : Decimal.digitValue e = 16 := by
    rcases eq_of_isLineEndChar he with rfl | rfl <;> rfl
  rw [Decimal.isDigit, hvalue]
  simpa using h

theorem stopsAtLineEnd_digitRun {radix : Nat} (h : radix ≤ 16) :
    StopsAtLineEnd (digitRun (Decimal.isDigit radix)) := by
  intro e he cs rest
  have hend := isDigit_lineEnd h he
  have hunderscore' : (e == '_') = false := by
    rcases eq_of_isLineEndChar he with rfl | rfl <;> rfl
  fun_induction digitRun (Decimal.isDigit radix) cs with
  | case1 =>
    rw [List.nil_append, digitRun.eq_def]
    simp [hend, hunderscore']
  | case2 c cs hc ih =>
    rw [List.cons_append, digitRun.eq_def]
    simp [hc, ih]
  | case3 c hc hunderscore d ds hd ih =>
    rw [List.cons_append, List.cons_append, digitRun.eq_def]
    simp [hc, hunderscore, hd, ih]
  | case4 c hc hunderscore d ds hd =>
    rw [List.cons_append, List.cons_append, digitRun.eq_def]
    simp [hc, hunderscore, hd]
  | case5 c hc hunderscore =>
    rw [List.cons_append, List.nil_append, digitRun.eq_def]
    simp [hc, hunderscore, hend]
  | case6 c cs hc hunderscore =>
    rw [List.cons_append, digitRun.eq_def]
    simp [hc, hunderscore]

theorem stopsAtLineEnd_decimalRun : StopsAtLineEnd decimalRun := by
  intro e he cs rest
  cases cs with
  | nil => rcases eq_of_isLineEndChar he with rfl | rfl <;> rfl
  | cons c cs =>
    rw [List.cons_append, decimalRun, decimalRun, stopsAtLineEnd_digitRun (by decide) he]

theorem stopsAtLineEnd_leadingExponent : StopsAtLineEnd leadingExponent := by
  intro e he cs rest
  rcases cs with _ | ⟨c, _ | ⟨s, ds⟩⟩
  · rcases eq_of_isLineEndChar he with rfl | rfl <;> rfl
  · have hnone : decimalRun (e :: rest) = [] := stopsAtLineEnd_decimalRun he [] rest
    have hsign : (e == '+' || e == '-') = false := by
      rcases eq_of_isLineEndChar he with rfl | rfl <;> rfl
    rw [List.cons_append, List.nil_append, leadingExponent, leadingExponent]
    simp [hnone, hsign]
  · have hds := stopsAtLineEnd_decimalRun he ds rest
    have hcs := stopsAtLineEnd_decimalRun he (s :: ds) rest
    rw [List.cons_append] at hcs
    rw [List.cons_append, List.cons_append, leadingExponent, leadingExponent]
    simp only [hds, hcs]

theorem stopsAtLineEnd_leadingImaginary : StopsAtLineEnd leadingImaginary := by
  intro e he cs rest
  cases cs with
  | nil => rcases eq_of_isLineEndChar he with rfl | rfl <;> rfl
  | cons c cs => rfl

theorem withSuffixes_append_lineEnd {e : Char} (he : isLineEndChar e = true)
    {numeral cs : List Char} (h : numeral <+: cs) (rest : List Char) :
    withSuffixes numeral (cs ++ e :: rest) = withSuffixes numeral cs := by
  have hexponent := append_prefix_of_drop h (isPrefix_leadingExponent _)
  have hlength := hexponent.length_le
  rw [List.length_append] at hlength
  simp only [withSuffixes]
  rw [List.drop_append_of_le_length h.length_le, stopsAtLineEnd_leadingExponent he,
    List.drop_append_of_le_length hlength, stopsAtLineEnd_leadingImaginary he]

theorem le_of_radixOf? {c : Char} {radix : Nat} (h : radixOf? c = some radix) : radix ≤ 16 := by
  unfold radixOf? at h
  split at h
  · cases h
    decide
  split at h
  · cases h
    decide
  split at h
  · cases h
    decide
  · cases h

theorem stopsAtLineEnd_leadingRadix : StopsAtLineEnd leadingRadix := by
  intro e he cs rest
  by_cases hzero : ∃ ds, cs = '0' :: ds
  · obtain ⟨ds, rfl⟩ := hzero
    cases ds with
    | nil => rcases eq_of_isLineEndChar he with rfl | rfl <;> rfl
    | cons c ds =>
      rw [List.cons_append, List.cons_append, leadingRadix, leadingRadix]
      cases hradix : radixOf? c with
      | none => rfl
      | some radix =>
        simp only [stopsAtLineEnd_digitRun (le_of_radixOf? hradix) he ds rest]
  · have hnone : ∀ c ds, cs ≠ '0' :: c :: ds := fun c ds heq => hzero ⟨c :: ds, heq⟩
    have hnone' : ∀ c ds, cs ++ e :: rest ≠ '0' :: c :: ds := by
      intro c ds heq
      cases cs with
      | nil =>
        rw [(List.cons.inj heq).1] at he
        exact absurd he (by decide)
      | cons d cs => exact hzero ⟨cs, by rw [(List.cons.inj heq).1]⟩
    rw [leadingRadix, leadingRadix]
    · exact hnone
    · exact hnone'

theorem stopsAtLineEnd_leadingPoint : StopsAtLineEnd leadingPoint := by
  intro e he cs rest
  have hwhole := isPrefix_decimalRun cs
  unfold leadingPoint
  simp only [stopsAtLineEnd_decimalRun he cs rest, List.drop_append_of_le_length hwhole.length_le]
  generalize hdrop : cs.drop (decimalRun cs).length = tail
  cases tail with
  | nil => rcases eq_of_isLineEndChar he with rfl | rfl <;> rfl
  | cons c tail =>
    by_cases hpoint : c = '.'
    · subst hpoint
      have hnumeral : decimalRun cs ++ '.' :: decimalRun tail <+: cs := by
        refine append_prefix_of_drop hwhole ?_
        rw [hdrop]
        exact List.cons_prefix_cons.mpr ⟨rfl, isPrefix_decimalRun tail⟩
      simp only [List.cons_append, stopsAtLineEnd_decimalRun he tail rest,
        withSuffixes_append_lineEnd he hnumeral]
    · simp [hpoint]

theorem stopsAtLineEnd_leadingWhole : StopsAtLineEnd leadingWhole := by
  intro e he cs rest
  unfold leadingWhole
  simp only [stopsAtLineEnd_decimalRun he cs rest,
    withSuffixes_append_lineEnd he (isPrefix_decimalRun cs)]

theorem stopsAtLineEnd_leadingNumber : StopsAtLineEnd leadingNumber := by
  intro e he cs rest
  rw [leadingNumber, leadingNumber, stopsAtLineEnd_leadingRadix he, stopsAtLineEnd_leadingPoint he,
    stopsAtLineEnd_leadingWhole he]

/-! ## Names and strings -/

theorem stopsAtLineEnd_leadingName : StopsAtLineEnd leadingName := by
  intro e he cs rest
  have hcontinue := stopsAtLineEnd_takeWhile (show isNameContinue '\r' = false by decide)
    (show isNameContinue '\n' = false by decide) he
  cases cs with
  | nil => rcases eq_of_isLineEndChar he with rfl | rfl <;> rfl
  | cons c cs => rw [List.cons_append, leadingName, leadingName, hcontinue]

/-- A quote counts three times if it stands there three times. -/
theorem leadingQuote_cons (c : Char) (cs : List Char) :
    leadingQuote (c :: cs) =
      if c = '\'' ∨ c = '"' then if [c, c].isPrefixOf cs then [c, c, c] else [c] else [] := by
  by_cases hc : c = '\'' ∨ c = '"'
  · rw [if_pos hc]
    split
    · next htriple =>
      obtain ⟨rest, rfl⟩ := List.isPrefixOf_iff_prefix.mp htriple
      rcases hc with rfl | rfl <;> rfl
    · next hsingle =>
      have hno : ∀ rest, cs ≠ c :: c :: rest := fun rest heq =>
        hsingle (List.isPrefixOf_iff_prefix.mpr ⟨rest, heq.symm⟩)
      rcases hc with rfl | rfl
      · rw [leadingQuote]
        exact hno
      · rw [leadingQuote]
        exact hno
  · simp only [not_or] at hc
    rw [if_neg (by simpa using hc), leadingQuote]
    · exact fun rest heq => hc.1 (List.cons.inj heq).1
    · exact fun rest heq => hc.2 (List.cons.inj heq).1
    · exact fun rest heq => hc.1 (List.cons.inj heq).1
    · exact fun rest heq => hc.2 (List.cons.inj heq).1

theorem stopsAtLineEnd_leadingQuote : StopsAtLineEnd leadingQuote := by
  intro e he cs rest
  cases cs with
  | nil => rcases eq_of_isLineEndChar he with rfl | rfl <;> rfl
  | cons c cs =>
    rw [List.cons_append, leadingQuote_cons, leadingQuote_cons]
    split
    · next hc =>
      have hfree : e ∉ [c, c] := by
        rcases eq_of_isLineEndChar he with rfl | rfl <;> rcases hc with rfl | rfl <;> decide
      rw [isPrefixOf_append_lineEnd hfree]
    · rfl

theorem stopsAtLineEnd_stringOpening? : StopsAtLineEnd stringOpening? := by
  intro e he cs rest
  have hmarks : ∀ mark ∈ marks, e ∉ mark := by
    rcases eq_of_isLineEndChar he with rfl | rfl <;> decide
  have hlower : lowerChar e = e := by
    rcases eq_of_isLineEndChar he with rfl | rfl <;> rfl
  unfold stringOpening?
  generalize marks = ms at hmarks
  induction ms with
  | nil => rfl
  | cons mark ms ih =>
    rw [List.findSome?_cons, List.findSome?_cons,
      ih fun m hm => hmarks m (List.mem_cons_of_mem _ hm)]
    have hmark := hmarks mark List.mem_cons_self
    rcases Nat.lt_or_ge cs.length mark.length with hlt | hle
    · -- neither text has the mark: one is too short for it, and the other has a line end in it
      have hshort : ((cs.take mark.length).map lowerChar == mark) = false := by
        rw [beq_eq_false_iff_ne]
        intro heq
        have hlength := congrArg List.length heq
        simp at hlength
        omega
      have hlong : (((cs ++ e :: rest).take mark.length).map lowerChar == mark) = false := by
        rw [beq_eq_false_iff_ne]
        intro heq
        refine hmark ?_
        rw [← heq]
        refine List.mem_map.mpr ⟨e, ?_, hlower⟩
        obtain ⟨n, hn⟩ : ∃ n, mark.length = cs.length + (n + 1) :=
          ⟨mark.length - cs.length - 1, by omega⟩
        rw [hn, List.take_length_add_append]
        simp
      simp only [hshort, hlong]
      rfl
    · rw [List.take_append_of_le_length hle, List.drop_append_of_le_length hle,
        stopsAtLineEnd_leadingQuote he]

/-- The body of a literal ends at its closing quote, whatever follows that. -/
theorem stringBody?_append_of_some {quote cs body : List Char}
    (h : stringBody? quote cs = some body) (rest : List Char) :
    stringBody? quote (cs ++ rest) = some body := by
  fun_induction stringBody? quote cs generalizing body with
  | case1 => cases h
  | case2 => cases h
  | case3 c hc d ds ih =>
    obtain ⟨inner, hinner, rfl⟩ := Option.map_eq_some_iff.mp h
    rw [List.cons_append, List.cons_append, stringBody?.eq_def]
    simp [hc, ih hinner]
  | case4 => cases h
  | case5 c cs hc hfeed hquote =>
    obtain rfl := Option.some.inj h
    have hquote' : quote.isPrefixOf (c :: cs ++ rest) = true := by
      rw [List.isPrefixOf_iff_prefix] at hquote ⊢
      exact hquote.trans (List.prefix_append _ _)
    rw [List.cons_append] at hquote' ⊢
    rw [stringBody?.eq_def]
    simp [hc, hfeed, hquote']
  | case6 c cs hc hfeed hquote ih =>
    obtain ⟨inner, hinner, rfl⟩ := Option.map_eq_some_iff.mp h
    -- the closing quote is still to come, so there is room for one here
    have hroom : quote.length ≤ (c :: cs).length := by
      have hlength := (isPrefix_of_stringBody? hinner).length_le
      simp only [List.length_append, List.length_cons] at hlength ⊢
      omega
    have hquote' : ¬ quote.isPrefixOf (c :: cs ++ rest) = true := by
      rw [List.isPrefixOf_iff_prefix] at hquote ⊢
      exact fun hprefix =>
        hquote (List.prefix_of_prefix_length_le hprefix (List.prefix_append _ _) hroom)
    rw [List.cons_append] at hquote' ⊢
    rw [stringBody?.eq_def]
    simp [hc, hfeed, hquote', ih hinner]

/-! ## The rules -/

/-- Where the rule finds the lexeme, or nothing, in one text, it finds the same in the other. -/
structure Steady (rule : Rule) (cs ds : List Char) (l : Lexeme) : Prop where
  none : rule cs = none → rule ds = none
  some : rule cs = some (.ok l) → rule ds = some (.ok l)

theorem Steady.of_eq {rule : Rule} {cs ds : List Char} (h : rule ds = rule cs) (l : Lexeme) :
    Steady rule cs ds l :=
  ⟨fun hnone => h.trans hnone, fun hsome => h.trans hsome⟩

/-- The rules are tried in the same order in both texts. -/
theorem next_of_steady {cs ds : List Char} {l : Lexeme} (h : next cs = .ok l)
    (hsteady : ∀ rule ∈ rules, Steady rule cs ds l) : next ds = .ok l := by
  unfold next at h ⊢
  generalize rules = rs at h hsteady
  induction rs with
  | nil => cases h
  | cons rule rs ih =>
    have hrule := hsteady rule List.mem_cons_self
    rw [List.findSome?_cons] at h ⊢
    cases hmade : rule cs with
    | none =>
      rw [hmade] at h
      rw [hrule.none hmade]
      exact ih h fun r hr => hsteady r (List.mem_cons_of_mem _ hr)
    | some outcome =>
      rw [hmade] at h
      cases h
      rw [hrule.some hmade]

theorem steady_stringRule (cs rest : List Char) (l : Lexeme) :
    Steady stringRule cs (cs ++ '\n' :: rest) l := by
  have hopening := stopsAtLineEnd_stringOpening? (e := '\n') rfl cs rest
  refine ⟨fun hnone => ?_, fun hsome => ?_⟩
  · rw [stringRule, Option.map_eq_none_iff] at hnone ⊢
    rw [hopening, hnone]
  · rw [stringRule, Option.map_eq_some_iff] at hsome ⊢
    obtain ⟨⟨mark, quote⟩, hopen, hsome⟩ := hsome
    refine ⟨(mark, quote), by rw [hopening, hopen], ?_⟩
    simp only at hsome ⊢
    split at hsome
    · cases hsome
    · next body hbody =>
      have hle : mark.length + quote.length ≤ cs.length := by
        rcases Nat.lt_or_ge cs.length (mark.length + quote.length) with hlt | hle
        · rw [List.drop_eq_nil_of_le hlt.le] at hbody
          cases hbody
        · exact hle
      rw [List.drop_append_of_le_length hle, stringBody?_append_of_some hbody,
        List.take_append_of_le_length hle]
      exact hsome

/-- The texts that a line feed completes to a lexeme or a part of one. -/
def isCutShort (cs : List Char) : Prop :=
  cs = [] ∨ cs = ['\r'] ∨ cs = ['\\'] ∨ cs = ['\\', '\r']

theorem next_of_isCutShort {cs : List Char} (h : isCutShort cs) (l : Lexeme) : next cs ≠ .ok l := by
  rcases h with rfl | rfl | rfl | rfl
  · exact nofun
  · exact nofun
  · exact nofun
  · exact nofun

theorem leadingLineEnd_append_feed {cs : List Char} (hnil : cs ≠ []) (hreturn : cs ≠ ['\r'])
    (rest : List Char) : leadingLineEnd (cs ++ '\n' :: rest) = leadingLineEnd cs := by
  rcases cs with _ | ⟨c, _ | ⟨d, cs⟩⟩
  · exact absurd rfl hnil
  · by_cases hc : c = '\n'
    · subst hc
      rfl
    · have hc' : c ≠ '\r' := fun heq => hreturn (by rw [heq])
      simp [leadingLineEnd, hc, hc']
  · by_cases hc : c = '\n'
    · subst hc
      rfl
    · by_cases hc' : c = '\r' ∧ d = '\n'
      · obtain ⟨rfl, rfl⟩ := hc'
        rfl
      · have hnone : ∀ tail, leadingLineEnd (c :: d :: tail) = [] := by
          intro tail
          rw [leadingLineEnd]
          · exact fun ds heq => hc (List.cons.inj heq).1
          · intro ds heq
            obtain ⟨hc'', htail⟩ := List.cons.inj heq
            exact hc' ⟨hc'', (List.cons.inj htail).1⟩
        rw [List.cons_append, List.cons_append, hnone, hnone]

theorem leadingContinuation_append_feed {cs : List Char} (h : ¬ isCutShort cs) (rest : List Char) :
    leadingContinuation (cs ++ '\n' :: rest) = leadingContinuation cs := by
  simp only [isCutShort, not_or] at h
  obtain ⟨hnil, -, hbackslash, hboth⟩ := h
  obtain ⟨c, ds, rfl⟩ := List.exists_cons_of_ne_nil hnil
  by_cases hc : c = '\\'
  · subst hc
    have hends : leadingLineEnd (ds ++ '\n' :: rest) = leadingLineEnd ds := by
      refine leadingLineEnd_append_feed ?_ ?_ rest
      · rintro rfl
        exact hbackslash rfl
      · rintro rfl
        exact hboth rfl
    rw [List.cons_append, leadingContinuation, leadingContinuation, hends]
  · simp [leadingContinuation, hc]

theorem stopsAtLineEnd_leadingComment : StopsAtLineEnd leadingComment := by
  intro e he cs rest
  have hline := stopsAtLineEnd_takeWhile (p := fun c => !isLineEndChar c) rfl rfl he
  cases cs with
  | nil => rcases eq_of_isLineEndChar he with rfl | rfl <;> rfl
  | cons c cs =>
    by_cases hc : c = '#'
    · subst hc
      rw [List.cons_append, leadingComment, leadingComment, hline]
    · simp [leadingComment, hc]

theorem stopsAtLineEnd_operatorRule : StopsAtLineEnd operatorRule := by
  intro e he cs rest
  have hrows : ∀ row ∈ operators, e ∉ row.1 := by
    rcases eq_of_isLineEndChar he with rfl | rfl <;> decide
  unfold operatorRule
  congr 1
  generalize operators = rows at hrows
  induction rows with
  | nil => rfl
  | cons row rows ih =>
    rw [List.find?_cons, List.find?_cons, ih fun r hr => hrows r (List.mem_cons_of_mem _ hr),
      isPrefixOf_append_lineEnd (hrows row List.mem_cons_self)]

/-- The rules that look at nothing past a line end. -/
theorem stopsAtLineEnd_of_mem {rule : Rule}
    (h : rule ∈ [blankRule, commentRule, numberRule, nameRule, operatorRule]) :
    StopsAtLineEnd rule := by
  intro e he cs rest
  simp only [List.mem_cons, List.not_mem_nil, or_false] at h
  rcases h with rfl | rfl | rfl | rfl | rfl
  · rw [blankRule, blankRule, stopsAtLineEnd_takeWhile rfl rfl he]
  · rw [commentRule, commentRule, stopsAtLineEnd_leadingComment he]
  · rw [numberRule, numberRule, stopsAtLineEnd_leadingNumber he]
  · rw [nameRule, nameRule, stopsAtLineEnd_leadingName he]
  · exact stopsAtLineEnd_operatorRule he cs rest

/-- Every rule is steady on a text that a line feed does not complete. -/
theorem steady_of_mem_rules {cs : List Char} (h : ¬ isCutShort cs) (rest : List Char) (l : Lexeme)
    {rule : Rule} (hrule : rule ∈ rules) : Steady rule cs (cs ++ '\n' :: rest) l := by
  simp only [rules, List.mem_cons, List.not_mem_nil, or_false] at hrule
  rcases hrule with rfl | rfl | rfl | rfl | rfl | rfl | rfl | rfl
  · exact .of_eq (stopsAtLineEnd_of_mem (by simp) rfl cs rest) l
  · exact .of_eq (by rw [continuationRule, continuationRule, leadingContinuation_append_feed h]) l
  · exact .of_eq (stopsAtLineEnd_of_mem (by simp) rfl cs rest) l
  · have hnil : cs ≠ [] := fun heq => h (Or.inl heq)
    have hreturn : cs ≠ ['\r'] := fun heq => h (Or.inr (Or.inl heq))
    exact .of_eq (by rw [lineEndRule, lineEndRule, leadingLineEnd_append_feed hnil hreturn]) l
  · exact steady_stringRule cs rest l
  · exact .of_eq (stopsAtLineEnd_of_mem (by simp) rfl cs rest) l
  · exact .of_eq (stopsAtLineEnd_of_mem (by simp) rfl cs rest) l
  · exact .of_eq (stopsAtLineEnd_of_mem (by simp) rfl cs rest) l

/-- **A lexeme does not depend on what follows its line.** -/
theorem next_append_feed {cs : List Char} {l : Lexeme} (h : next cs = .ok l) (rest : List Char) :
    next (cs ++ '\n' :: rest) = .ok l := by
  have hcut : ¬ isCutShort cs := fun hcut => next_of_isCutShort hcut l h
  exact next_of_steady h fun rule => steady_of_mem_rules hcut rest l

/-! ## Other texts behind the line -/

theorem leadingLineEnd_feed_congr (cs rest rest' : List Char) :
    leadingLineEnd (cs ++ '\n' :: rest') = leadingLineEnd (cs ++ '\n' :: rest) := by
  by_cases hnil : cs = []
  · subst hnil
    rfl
  by_cases hreturn : cs = ['\r']
  · subst hreturn
    rfl
  rw [leadingLineEnd_append_feed hnil hreturn, leadingLineEnd_append_feed hnil hreturn]

theorem leadingContinuation_feed_congr (cs rest rest' : List Char) :
    leadingContinuation (cs ++ '\n' :: rest') = leadingContinuation (cs ++ '\n' :: rest) := by
  by_cases hcut : isCutShort cs
  · rcases hcut with rfl | rfl | rfl | rfl <;> rfl
  · rw [leadingContinuation_append_feed hcut, leadingContinuation_append_feed hcut]

/-- What a literal opens with: one of the marks, in either case, and a quote. -/
theorem opening_of_stringOpening? {cs mark quote : List Char}
    (h : stringOpening? cs = some (mark, quote)) :
    mark ∈ marks ∧ (cs.take mark.length).map lowerChar = mark ∧
      quote = leadingQuote (cs.drop mark.length) ∧ quote ≠ [] := by
  obtain ⟨m, hmem, hm⟩ := List.exists_of_findSome?_eq_some h
  simp only at hm
  split at hm
  · next hfits =>
    obtain ⟨rfl, rfl⟩ := Prod.mk.inj (Option.some.inj hm)
    obtain ⟨hmark, hquote⟩ := Bool.and_eq_true_iff.mp hfits
    exact ⟨hmem, beq_iff_eq.mp hmark, rfl, by simpa using hquote⟩
  · cases hm

/-- A body that is closed within a part of a text is found in that part alone. -/
theorem stringBody?_of_append {quote cs rest body : List Char} (hquote : quote ≠ [])
    (h : stringBody? quote (cs ++ rest) = some body)
    (hin : body.length + quote.length ≤ cs.length) : stringBody? quote cs = some body := by
  have hroom := List.length_pos_iff.mpr hquote
  fun_induction stringBody? quote cs generalizing body with
  | case1 =>
    rw [List.length_nil] at hin
    omega
  | case2 c hc =>
    -- the backslash takes a character from the rest with it
    cases rest with
    | nil => simp [stringBody?, hc] at h
    | cons d ds =>
      rw [List.cons_append, List.nil_append, stringBody?.eq_def] at h
      simp only [hc, if_true] at h
      obtain ⟨inner, -, rfl⟩ := Option.map_eq_some_iff.mp h
      simp only [List.length_cons, List.length_nil] at hin
      omega
  | case3 c hc d ds ih =>
    rw [List.cons_append, List.cons_append, stringBody?.eq_def] at h
    simp only [hc, if_true] at h
    obtain ⟨inner, hinner, rfl⟩ := Option.map_eq_some_iff.mp h
    rw [ih hinner (by simp only [List.length_cons] at hin; omega), Option.map_some]
  | case4 c cs hc hfeed =>
    rw [List.cons_append, stringBody?.eq_def] at h
    simp [hc, hfeed] at h
  | case5 c cs hc hfeed hclosed =>
    have hclosed' : quote.isPrefixOf (c :: (cs ++ rest)) = true := by
      rw [List.isPrefixOf_iff_prefix] at hclosed ⊢
      exact hclosed.trans (List.prefix_append (c :: cs) rest)
    rw [List.cons_append, stringBody?.eq_def] at h
    simpa [hc, hfeed, hclosed'] using h
  | case6 c cs hc hfeed hopen ih =>
    have hopen' : ¬ quote.isPrefixOf (c :: (cs ++ rest)) = true := by
      rw [List.isPrefixOf_iff_prefix] at hopen ⊢
      exact fun hprefix => hopen (List.prefix_of_prefix_length_le hprefix
        (List.prefix_append (c :: cs) rest) (by omega))
    rw [List.cons_append, stringBody?.eq_def] at h
    simp only [hc, hfeed, hopen', if_false, Bool.false_eq_true] at h
    obtain ⟨inner, hinner, rfl⟩ := Option.map_eq_some_iff.mp h
    rw [ih hinner (by simp only [List.length_cons] at hin; omega), Option.map_some]

theorem steady_stringRule_line (cs rest rest' : List Char) {l : Lexeme}
    (hin : l.chars.length ≤ cs.length + 1) :
    Steady stringRule (cs ++ '\n' :: rest) (cs ++ '\n' :: rest') l := by
  have hopening : stringOpening? (cs ++ '\n' :: rest') = stringOpening? (cs ++ '\n' :: rest) := by
    rw [stopsAtLineEnd_stringOpening? rfl, stopsAtLineEnd_stringOpening? rfl]
  refine ⟨fun hnone => ?_, fun hsome => ?_⟩
  · rw [stringRule, Option.map_eq_none_iff] at hnone ⊢
    rw [hopening, hnone]
  · rw [stringRule, Option.map_eq_some_iff] at hsome ⊢
    obtain ⟨⟨mark, quote⟩, hopen, hsome⟩ := hsome
    refine ⟨(mark, quote), by rw [hopening, hopen], ?_⟩
    obtain ⟨-, -, -, hquote⟩ := opening_of_stringOpening? hopen
    have hroom := List.length_pos_iff.mpr hquote
    simp only at hsome ⊢
    split at hsome
    · cases hsome
    · next body hbody =>
      obtain rfl := Except.ok.inj hsome
      have hbound : mark.length + quote.length ≤ cs.length ∧
          body.length + quote.length ≤ (cs.drop (mark.length + quote.length) ++ ['\n']).length := by
        simp at hin ⊢
        omega
      rw [List.drop_append_of_le_length hbound.1, List.append_cons] at hbody ⊢
      have hline := stringBody?_of_append hquote hbody hbound.2
      rw [stringBody?_append_of_some hline, List.take_append_of_le_length hbound.1,
        List.take_append_of_le_length hbound.1]

/-- **A lexeme on a line does not depend on what follows the line.** -/
theorem next_of_line {cs rest : List Char} {l : Lexeme} (h : next (cs ++ '\n' :: rest) = .ok l)
    (hin : l.chars.length ≤ cs.length + 1) (rest' : List Char) :
    next (cs ++ '\n' :: rest') = .ok l := by
  refine next_of_steady h fun rule hrule => ?_
  have hstops : ∀ {rule : Rule}, StopsAtLineEnd rule →
      Steady rule (cs ++ '\n' :: rest) (cs ++ '\n' :: rest') l := fun hstops =>
    .of_eq ((hstops rfl cs rest').trans (hstops rfl cs rest).symm) l
  simp only [rules, List.mem_cons, List.not_mem_nil, or_false] at hrule
  rcases hrule with rfl | rfl | rfl | rfl | rfl | rfl | rfl | rfl
  · exact hstops (stopsAtLineEnd_of_mem (by simp))
  · exact .of_eq (by rw [continuationRule, continuationRule, leadingContinuation_feed_congr]) l
  · exact hstops (stopsAtLineEnd_of_mem (by simp))
  · exact .of_eq (by rw [lineEndRule, lineEndRule, leadingLineEnd_feed_congr]) l
  · exact steady_stringRule_line cs rest rest' hin
  · exact hstops (stopsAtLineEnd_of_mem (by simp))
  · exact hstops (stopsAtLineEnd_of_mem (by simp))
  · exact hstops (stopsAtLineEnd_of_mem (by simp))

end Lexeme
end SlotTree

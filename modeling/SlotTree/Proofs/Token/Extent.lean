import SlotTree.Proofs.Token.Words

/-!
# The extent of a lexeme

A lexeme takes up a stretch at the start of the text (`prefix_of_next`).  For most rules this
is plain, because they take characters off the text as long as they like them; a number is
put together from parts that each start where the one before ends, and a string literal is put
together again from its mark, its quotes and what stands between them.

What no token stands for is of four kinds (`Skipped`): blanks, a comment, a line end after a
backslash, and a line end.  That a comment goes up to the end of its line depends on the text
that follows it, so `Skipped` speaks of a stretch and of the rest of the text.

`Recognised` lists what the rules make of a text, one case for each rule.
-/

namespace SlotTree

/-- Whether a token of the kind has the characters that it stands for as its text.  Layout
tokens have no text of their own, and string literals have the text that they denote. -/
def TokenKind.isSpelled : TokenKind → Bool
  | eof | newline | indent | dedent | string | bytes | formatString => false
  | _ => true

namespace Lexeme

/-! ## Stretches at the start of a text -/

theorem append_prefix_of_drop {xs ys cs : List Char} (hx : xs <+: cs)
    (hy : ys <+: cs.drop xs.length) : xs ++ ys <+: cs := by
  obtain ⟨rest, rfl⟩ := hx
  rw [List.drop_left] at hy
  exact List.prefix_append_right_inj xs |>.mpr hy

theorem take_append_prefix_of_drop {n : Nat} {ys cs : List Char} (hy : ys <+: cs.drop n) :
    cs.take n ++ ys <+: cs := by
  have happend := (List.prefix_append_right_inj (cs.take n)).mpr hy
  rwa [List.take_append_drop] at happend

theorem isPrefix_leadingLineEnd (cs : List Char) : leadingLineEnd cs <+: cs := by
  unfold leadingLineEnd
  split <;> simp

theorem isPrefix_leadingContinuation (cs : List Char) : leadingContinuation cs <+: cs := by
  unfold leadingContinuation
  split
  · split
    · exact List.nil_prefix
    · exact List.cons_prefix_cons.mpr ⟨rfl, isPrefix_leadingLineEnd _⟩
  · exact List.nil_prefix

theorem isPrefix_leadingComment (cs : List Char) : leadingComment cs <+: cs := by
  unfold leadingComment
  split
  · exact List.cons_prefix_cons.mpr ⟨rfl, List.takeWhile_prefix _⟩
  · exact List.nil_prefix

/-! ## Numbers -/

theorem isPrefix_digitRun (isDigit : Char → Bool) (cs : List Char) :
    digitRun isDigit cs <+: cs := by
  fun_induction digitRun isDigit cs with
  | case2 c cs hc ih => exact List.cons_prefix_cons.mpr ⟨rfl, ih⟩
  | case3 c _ _ d ds hd ih =>
    exact List.cons_prefix_cons.mpr ⟨rfl, List.cons_prefix_cons.mpr ⟨rfl, ih⟩⟩
  | _ => exact List.nil_prefix

theorem isPrefix_decimalRun (cs : List Char) : decimalRun cs <+: cs := by
  unfold decimalRun
  split
  · split
    · exact List.cons_prefix_cons.mpr ⟨rfl, isPrefix_digitRun _ _⟩
    · exact List.nil_prefix
  · exact List.nil_prefix

theorem isPrefix_leadingExponent (cs : List Char) : leadingExponent cs <+: cs := by
  unfold leadingExponent
  split
  · split
    · split
      · split
        · split
          · exact List.nil_prefix
          · exact List.cons_prefix_cons.mpr
              ⟨rfl, List.cons_prefix_cons.mpr ⟨rfl, isPrefix_decimalRun _⟩⟩
        · split
          · exact List.nil_prefix
          · exact List.cons_prefix_cons.mpr ⟨rfl, isPrefix_decimalRun _⟩
      · exact List.nil_prefix
    · exact List.nil_prefix
  · exact List.nil_prefix

theorem isPrefix_leadingImaginary (cs : List Char) : leadingImaginary cs <+: cs := by
  unfold leadingImaginary
  split
  · split <;> simp
  · exact List.nil_prefix

theorem isPrefix_withSuffixes {numeral cs : List Char} (h : numeral <+: cs) :
    withSuffixes numeral cs <+: cs := by
  have hexponent := append_prefix_of_drop h (isPrefix_leadingExponent _)
  refine append_prefix_of_drop hexponent ?_
  rw [List.length_append]
  exact isPrefix_leadingImaginary _

theorem isPrefix_leadingRadix (cs : List Char) : leadingRadix cs <+: cs := by
  unfold leadingRadix
  split
  · split
    · simp only
      split
      · exact List.nil_prefix
      · exact List.cons_prefix_cons.mpr
          ⟨rfl, List.cons_prefix_cons.mpr ⟨rfl, isPrefix_digitRun _ _⟩⟩
    · exact List.nil_prefix
  · exact List.nil_prefix

theorem isPrefix_leadingPoint (cs : List Char) : leadingPoint cs <+: cs := by
  unfold leadingPoint
  simp only
  split
  · next rest hdrop =>
    split
    · exact List.nil_prefix
    · refine isPrefix_withSuffixes (append_prefix_of_drop (isPrefix_decimalRun cs) ?_)
      rw [hdrop]
      exact List.cons_prefix_cons.mpr ⟨rfl, isPrefix_decimalRun rest⟩
  · exact List.nil_prefix

theorem isPrefix_leadingWhole (cs : List Char) : leadingWhole cs <+: cs := by
  unfold leadingWhole
  simp only
  split
  · exact List.nil_prefix
  · exact isPrefix_withSuffixes (isPrefix_decimalRun cs)

theorem isPrefix_leadingNumber (cs : List Char) : leadingNumber cs <+: cs := by
  unfold leadingNumber
  split
  · exact isPrefix_leadingRadix cs
  split
  · exact isPrefix_leadingPoint cs
  · exact isPrefix_leadingWhole cs

/-! ## Names and strings -/

theorem isPrefix_leadingName (cs : List Char) : Text.leadingName cs <+: cs := by
  unfold Text.leadingName
  split
  · exact List.nil_prefix
  split
  · exact List.cons_prefix_cons.mpr ⟨rfl, List.takeWhile_prefix _⟩
  · exact List.nil_prefix

/-- The body of a literal is followed by the closing quote. -/
theorem isPrefix_of_stringBody? {quote cs body : List Char} (h : stringBody? quote cs = some body) :
    body ++ quote <+: cs := by
  fun_induction stringBody? quote cs generalizing body with
  | case1 => cases h
  | case2 => cases h
  | case3 c hc d ds ih =>
    obtain ⟨inner, hinner, rfl⟩ := Option.map_eq_some_iff.mp h
    exact List.cons_prefix_cons.mpr ⟨rfl, List.cons_prefix_cons.mpr ⟨rfl, ih hinner⟩⟩
  | case4 => cases h
  | case5 c cs _ _ hquote =>
    obtain rfl := Option.some.inj h
    exact List.isPrefixOf_iff_prefix.mp hquote
  | case6 c cs _ _ _ ih =>
    obtain ⟨inner, hinner, rfl⟩ := Option.map_eq_some_iff.mp h
    exact List.cons_prefix_cons.mpr ⟨rfl, ih hinner⟩

/-! ## What the rules make of a text -/

/-- What a rule makes of the start of a text. -/
inductive Recognised (cs : List Char) : Lexeme → Prop where
  | blanks : Recognised cs ⟨.trivia, cs.takeWhile isSpace⟩
  | continuation (some : leadingContinuation cs ≠ []) :
      Recognised cs ⟨.trivia, leadingContinuation cs⟩
  | comment (some : leadingComment cs ≠ []) : Recognised cs ⟨.trivia, leadingComment cs⟩
  | lineEnd (some : leadingLineEnd cs ≠ []) : Recognised cs ⟨.lineEnd, leadingLineEnd cs⟩
  | literal {mark quote body : List Char}
      (inside : stringBody? quote (cs.drop (mark.length + quote.length)) = some body) :
      Recognised cs ⟨.token (stringKind mark) (stringText mark body),
        cs.take (mark.length + quote.length) ++ body ++ quote⟩
  | number : Recognised cs ⟨.token .number (String.ofList (leadingNumber cs)), leadingNumber cs⟩
  | name :
      Recognised cs ⟨.token (nameKind (String.ofList (Text.leadingName cs)))
        (String.ofList (Text.leadingName cs)), Text.leadingName cs⟩
  | operator {row : List Char × TokenKind} (mem : row ∈ operators) (starts : row.1 <+: cs) :
      Recognised cs ⟨.token row.2 (String.ofList row.1), row.1⟩

theorem eq_of_found {piece : Piece} {chars : List Char} {l : Lexeme}
    (h : found piece chars = some (.ok l)) : l = ⟨piece, chars⟩ ∧ chars ≠ [] := by
  unfold found at h
  split at h
  · cases h
  · next hne => exact ⟨(Except.ok.inj (Option.some.inj h)).symm, by simpa using hne⟩

theorem recognised_of_stringRule {cs : List Char} {l : Lexeme}
    (h : stringRule cs = some (.ok l)) : Recognised cs l := by
  unfold stringRule at h
  obtain ⟨⟨mark, quote⟩, -, h⟩ := Option.map_eq_some_iff.mp h
  simp only at h
  split at h
  · cases h
  · next body hbody =>
    obtain rfl := Except.ok.inj h
    exact .literal hbody

theorem recognised_of_operatorRule {cs : List Char} {l : Lexeme}
    (h : operatorRule cs = some (.ok l)) : Recognised cs l := by
  unfold operatorRule at h
  obtain ⟨row, hrow, h⟩ := Option.map_eq_some_iff.mp h
  obtain rfl := Except.ok.inj h
  have hstarts : row.1.isPrefixOf cs = true := by simpa using List.find?_some hrow
  exact .operator (List.mem_of_find?_eq_some hrow) (List.isPrefixOf_iff_prefix.mp hstarts)

theorem recognised_of_mem_rules {cs : List Char} {l : Lexeme} {rule : Rule} (hmem : rule ∈ rules)
    (hr : rule cs = some (.ok l)) : Recognised cs l := by
  simp only [rules, List.mem_cons, List.not_mem_nil, or_false] at hmem
  rcases hmem with rfl | rfl | rfl | rfl | rfl | rfl | rfl | rfl
  · obtain ⟨rfl, -⟩ := eq_of_found hr
    exact .blanks
  · obtain ⟨rfl, hsome⟩ := eq_of_found hr
    exact .continuation hsome
  · obtain ⟨rfl, hsome⟩ := eq_of_found hr
    exact .comment hsome
  · obtain ⟨rfl, hsome⟩ := eq_of_found hr
    exact .lineEnd hsome
  · exact recognised_of_stringRule hr
  · obtain ⟨rfl, -⟩ := eq_of_found hr
    exact .number
  · obtain ⟨rfl, -⟩ := eq_of_found hr
    exact .name
  · exact recognised_of_operatorRule hr

theorem recognised_of_next {cs : List Char} {l : Lexeme} (h : next cs = .ok l) :
    Recognised cs l := by
  unfold next at h
  split at h
  · next outcome hrule =>
    subst h
    obtain ⟨rule, hmem, hr⟩ := List.exists_of_findSome?_eq_some hrule
    exact recognised_of_mem_rules hmem hr
  · cases h

/-- What a rule finds is a stretch at the start of the text. -/
theorem Recognised.isPrefix {cs : List Char} {l : Lexeme} (h : Recognised cs l) :
    l.chars <+: cs := by
  cases h with
  | blanks => exact List.takeWhile_prefix _
  | continuation => exact isPrefix_leadingContinuation cs
  | comment => exact isPrefix_leadingComment cs
  | lineEnd => exact isPrefix_leadingLineEnd cs
  | literal inside =>
    simp only [List.append_assoc]
    exact take_append_prefix_of_drop (isPrefix_of_stringBody? inside)
  | number => exact isPrefix_leadingNumber cs
  | name => exact isPrefix_leadingName cs
  | operator _ starts => exact starts

/-- **A lexeme is a stretch at the start of the text.** -/
theorem prefix_of_next {cs : List Char} {l : Lexeme} (h : next cs = .ok l) : l.chars <+: cs :=
  (recognised_of_next h).isPrefix

/-! ## What no token stands for -/

/-- The characters are a line end. -/
def IsLineEnd (cs : List Char) : Prop := cs = ['\n'] ∨ cs = ['\r', '\n']

/-- A stretch in front of the rest of a text that no token stands for. -/
inductive Skipped : List Char → List Char → Prop where
  | blanks {cs rest : List Char} (blank : ∀ c ∈ cs, isSpace c = true) : Skipped cs rest
  /-- A comment goes up to the end of its line. -/
  | comment {cs rest : List Char} (inside : ∀ c ∈ cs, isLineEndChar c = false)
      (ends : ∀ c ∈ rest.head?, isLineEndChar c = true) : Skipped ('#' :: cs) rest
  | continuation {cs rest : List Char} (lineEnd : IsLineEnd cs) : Skipped ('\\' :: cs) rest
  | lineEnd {cs rest : List Char} (lineEnd : IsLineEnd cs) : Skipped cs rest

theorem isLineEnd_leadingLineEnd {cs : List Char} (h : leadingLineEnd cs ≠ []) :
    IsLineEnd (leadingLineEnd cs) := by
  unfold leadingLineEnd at h ⊢
  split at h
  · exact Or.inl rfl
  · exact Or.inr rfl
  · exact absurd rfl h

theorem isLineEnd_of_next {cs chars : List Char} (h : next cs = .ok ⟨.lineEnd, chars⟩) :
    IsLineEnd chars := by
  cases recognised_of_next h with
  | lineEnd hsome => exact isLineEnd_leadingLineEnd hsome

/-- What follows the longest run of characters of a kind is of another kind. -/
theorem head?_of_takeWhile {p : Char → Bool} {cs rest : List Char}
    (h : cs = cs.takeWhile p ++ rest) : ∀ c ∈ rest.head?, p c = false := by
  have hrest : cs.takeWhile p ++ cs.dropWhile p = cs.takeWhile p ++ rest := by
    rw [List.takeWhile_append_dropWhile, ← h]
  obtain rfl := List.append_cancel_left hrest
  intro c hc
  have hdrop := List.head?_dropWhile_not p cs
  rw [Option.mem_def.mp hc] at hdrop
  exact hdrop

/-- **Trivia are blanks, a comment or a line end after a backslash.** -/
theorem skipped_of_next {cs chars rest : List Char} (h : next cs = .ok ⟨.trivia, chars⟩)
    (hcs : cs = chars ++ rest) : Skipped chars rest := by
  cases recognised_of_next h with
  | blanks => exact .blanks fun c hc => List.mem_takeWhile_imp hc
  | continuation hsome =>
    unfold leadingContinuation at hsome ⊢
    split at hsome
    · next ds =>
      split at hsome
      · exact absurd rfl hsome
      · next hne =>
        simp only [if_neg hne]
        exact .continuation (isLineEnd_leadingLineEnd (by simpa using hne))
    · exact absurd rfl hsome
  | comment hsome =>
    unfold leadingComment at hsome hcs ⊢
    split at hsome
    · next ds =>
      refine .comment (fun c hc => by simpa using List.mem_takeWhile_imp hc) fun c hc => ?_
      have hds : ds = ds.takeWhile (fun c => !isLineEndChar c) ++ rest := by simpa using hcs
      simpa using head?_of_takeWhile hds c hc
    · exact absurd rfl hsome

/-! ## What a token stands for -/

theorem isSpelled_stringKind (mark : List Char) : (stringKind mark).isSpelled = false := by
  unfold stringKind
  split
  · rfl
  · split <;> rfl

/-- **A token that is no string has the characters that it stands for as its text.** -/
theorem spelled_of_next {cs chars : List Char} {kind : TokenKind} {text : String}
    (h : next cs = .ok ⟨.token kind text, chars⟩) (hkind : kind.isSpelled = true) :
    text = String.ofList chars := by
  cases recognised_of_next h with
  | literal => simp [isSpelled_stringKind] at hkind
  | number => rfl
  | name => rfl
  | operator => rfl

end Lexeme
end SlotTree

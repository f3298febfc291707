import SlotTree.Proofs.Token.LineLocal
import SlotTree.Proofs.Token.Lockstep

/-!
# Both line ends

A line may end in a line feed or in a carriage return and a line feed.  `withReturns` puts the
second in the place of the first, and what the tokens say should not depend on it.

Line ends are looked at in six places: between tokens, behind a backslash, at the end of a comment,
at the beginning of a line, where the end of a literal is looked for and where its escapes are
resolved.  Five of them know both line ends.  The search for the closing quote does not: it takes
one character with a backslash.  If this is a carriage return, then the line feed behind it stands
alone and ends the literal before its quote (`stringBody?_withReturns`), although the resolution of
escapes would have passed over both.

So a literal that goes over a line end is lost, and nothing else is.  What a text starts with
becomes the same lexeme with the other line end, or a fault if it is such a literal
(`next_withReturns`).  Two scanners on the two texts stay abreast up to the first one
(`Scan.Abreast.outcome_run`), and the line end makes no difference exactly if there is none
(`tokenize_withReturns_iff`).

Literals in three quotes are left out.  They may have line ends in them, which are then part of
their value.
-/

namespace SlotTree

/-! ## Texts with the other line end -/

namespace Text

/-- The text with a carriage return in front of every line feed. -/
def withReturns (cs : List Char) : List Char :=
  cs.flatMap fun c => if c = '\n' then ['\r', '\n'] else [c]

@[simp] theorem withReturns_nil : withReturns [] = [] := rfl

@[simp] theorem withReturns_feed (cs : List Char) :
    withReturns ('\n' :: cs) = '\r' :: '\n' :: withReturns cs := rfl

theorem withReturns_cons {c : Char} (h : c ≠ '\n') (cs : List Char) :
    withReturns (c :: cs) = c :: withReturns cs := by
  simp [withReturns, h]

theorem withReturns_append (xs ys : List Char) :
    withReturns (xs ++ ys) = withReturns xs ++ withReturns ys := List.flatMap_append

theorem withReturns_of_not_mem {cs : List Char} (h : '\n' ∉ cs) : withReturns cs = cs := by
  induction cs with
  | nil => rfl
  | cons c cs ih =>
    simp only [List.mem_cons, not_or] at h
    rw [withReturns_cons (Ne.symm h.1), ih h.2]

@[simp] theorem withReturns_eq_nil {cs : List Char} : withReturns cs = [] ↔ cs = [] := by
  refine ⟨fun h => ?_, fun h => by rw [h, withReturns_nil]⟩
  cases cs with
  | nil => rfl
  | cons c cs =>
    by_cases hc : c = '\n'
    · subst hc
      cases h
    · rw [withReturns_cons hc] at h
      cases h

/-- A text goes up to its first line feed, if it has one. -/
theorem feed_cases (cs : List Char) :
    '\n' ∉ cs ∨ ∃ line rest, '\n' ∉ line ∧ cs = line ++ '\n' :: rest ∧
      withReturns cs = line ++ '\r' :: '\n' :: withReturns rest := by
  by_cases hfeed : '\n' ∈ cs
  · obtain ⟨line, rest, rfl, hline⟩ := List.eq_append_cons_of_mem hfeed
    refine Or.inr ⟨line, rest, hline, rfl, ?_⟩
    rw [withReturns_append, withReturns_of_not_mem hline, withReturns_feed]
  · exact Or.inl hfeed

end Text

open Text (withReturns withReturns_append withReturns_of_not_mem)

namespace Lexeme

/-- What stops at a line end stops at the other one. -/
theorem StopsAtLineEnd.withReturns {α : Type} {f : List Char → α} (h : StopsAtLineEnd f)
    (cs : List Char) : f (withReturns cs) = f cs := by
  rcases Text.feed_cases cs with hnone | ⟨line, rest, -, hcs, hreturns⟩
  · rw [withReturns_of_not_mem hnone]
  · rw [hreturns, hcs, h rfl, h rfl]

/-- The text of a script that is read line by line: no carriage return of its own, and no quotes
that stand three times. -/
structure Plain (cs : List Char) : Prop where
  noReturn : '\r' ∉ cs
  noTriple : ∀ q ∈ ['\'', '"'], ¬ [q, q, q] <:+: cs

theorem Plain.suffix {cs ds : List Char} (h : Plain cs) (hds : ds <:+ cs) : Plain ds :=
  ⟨fun hmem => h.noReturn (hds.subset hmem),
    fun q hq htriple => h.noTriple q hq (htriple.trans hds.isInfix)⟩

/-- A text literal that goes over a line end. -/
def goesOver (l : Lexeme) : Bool :=
  match l.piece with
  | .token kind _ => kind.isText && l.chars.contains '\n'
  | _ => false

/-- What becomes of a lexeme with the other line end. -/
def reflow : Except Cause Lexeme → Except Cause Lexeme
  | .error cause => .error cause
  | .ok l => if l.goesOver then .error .unterminatedString else .ok ⟨l.piece, withReturns l.chars⟩

theorem reflow_of_not_mem {l : Lexeme} (h : '\n' ∉ l.chars) : reflow (.ok l) = .ok l := by
  have hstays : l.goesOver = false := by
    unfold goesOver
    split <;> simp [h]
  rw [reflow, hstays, withReturns_of_not_mem h]
  rfl

/-- A rule that stops at a line end finds the same lexeme. -/
theorem map_reflow_of_stops {rule : Rule} (hmem : rule ∈ rules) (hstops : StopsAtLineEnd rule)
    (cs : List Char) : rule (withReturns cs) = (rule cs).map reflow := by
  rw [hstops.withReturns]
  match hmade : rule cs with
  | none => rfl
  | some (.error cause) => rfl
  | some (.ok l) =>
    have hline : '\n' ∉ l.chars := by
      rcases Text.feed_cases cs with hnone | ⟨line, rest, hnone, rfl, -⟩
      · exact fun hfeed => hnone ((recognised_of_mem_rules hmem hmade).isPrefix.subset hfeed)
      · rw [hstops rfl] at hmade
        exact fun hfeed => hnone ((recognised_of_mem_rules hmem hmade).isPrefix.subset hfeed)
    rw [Option.map_some, reflow_of_not_mem hline]

theorem leadingLineEnd_withReturns {cs : List Char} (h : '\r' ∉ cs) :
    leadingLineEnd (withReturns cs) = withReturns (leadingLineEnd cs) := by
  cases cs with
  | nil => rfl
  | cons c cs =>
    by_cases hfeed : c = '\n'
    · subst hfeed
      rfl
    · have hreturn : c ≠ '\r' := fun heq => h (by simp [heq])
      rw [Text.withReturns_cons hfeed]
      simp [leadingLineEnd, hfeed, hreturn]

theorem leadingContinuation_withReturns {cs : List Char} (h : '\r' ∉ cs) :
    leadingContinuation (withReturns cs) = withReturns (leadingContinuation cs) := by
  cases cs with
  | nil => rfl
  | cons c cs =>
    by_cases hbackslash : c = '\\'
    · subst hbackslash
      have hreturn : '\r' ∉ cs := fun hmem => h (List.mem_cons_of_mem _ hmem)
      have hends := leadingLineEnd_withReturns hreturn
      rw [Text.withReturns_cons (by decide), leadingContinuation, leadingContinuation, hends]
      by_cases hnone : leadingLineEnd cs = []
      · simp [hnone]
      · simp [hnone, Text.withReturns_cons (show '\\' ≠ '\n' by decide)]
    · by_cases hfeed : c = '\n'
      · subst hfeed
        rfl
      · rw [Text.withReturns_cons hfeed]
        simp [leadingContinuation, hbackslash]

/-- A literal with a single quote ends with its line. -/
theorem stringBody?_feed (q : Char) (cs : List Char) : stringBody? [q] ('\n' :: cs) = none := by
  rw [stringBody?.eq_def]
  rfl

/-- What is put in front of a body does not matter to the line feeds in it. -/
theorem filter_map_append {front : List Char} (h : '\n' ∉ front) (found : Option (List Char)) :
    (found.map (front ++ ·)).filter (fun body => !body.contains '\n') =
      (found.filter fun body => !body.contains '\n').map (front ++ ·) := by
  have hsame : ((fun body : List Char => !body.contains '\n') ∘ (front ++ ·)) =
      fun body => !body.contains '\n' := by
    funext body
    simp [h]
  rw [Option.filter_map, hsame]

/-- **A backslash takes the carriage return with it, and the line feed behind it ends the
literal.** -/
theorem stringBody?_withReturns {q : Char} (hq : q ≠ '\r') (cs : List Char) :
    stringBody? [q] (withReturns cs) =
      (stringBody? [q] cs).filter fun body => !body.contains '\n' := by
  fun_induction stringBody? [q] cs with
  | case1 => rfl
  | case2 c hc =>
    obtain rfl : c = '\\' := by simpa using hc
    rfl
  | case3 c hc d ds ih =>
    obtain rfl : c = '\\' := by simpa using hc
    rw [Text.withReturns_cons (by decide)]
    by_cases hd : d = '\n'
    · subst hd
      have hnone : ∀ found : Option (List Char), (found.map fun body => '\\' :: '\n' :: body).filter
          (fun body => !body.contains '\n') = none := by
        rintro (_ | body) <;> rfl
      rw [Text.withReturns_feed, stringBody?.eq_def, hnone]
      simp only [beq_self_eq_true, if_true, stringBody?_feed, Option.map_none]
    · have hfront : '\n' ∉ ['\\', d] := by simp [Ne.symm hd]
      rw [Text.withReturns_cons hd, stringBody?.eq_def]
      exact (congrArg (Option.map (['\\', d] ++ ·)) ih).trans (filter_map_append hfront _).symm
  | case4 c cs hc hfeed =>
    obtain rfl : c = '\n' := by simpa using hfeed
    rw [Text.withReturns_feed, stringBody?.eq_def]
    simp [hq, stringBody?_feed]
  | case5 c cs hc hfeed hquote =>
    have hc' : c ≠ '\n' := by simpa using hfeed
    have hquote' : [q].isPrefixOf (c :: withReturns cs) = true := by simpa using hquote
    rw [Text.withReturns_cons hc', stringBody?.eq_def]
    simp only [hc, hfeed, hquote', if_true, if_false, Bool.false_eq_true]
    rfl
  | case6 c cs hc hfeed hquote ih =>
    have hc' : c ≠ '\n' := by simpa using hfeed
    have hquote' : ¬ [q].isPrefixOf (c :: withReturns cs) = true := by simpa using hquote
    have hfront : '\n' ∉ [c] := by simp [Ne.symm hc']
    rw [Text.withReturns_cons hc', stringBody?.eq_def]
    simp only [hc, hfeed, hquote', if_false, Bool.false_eq_true]
    exact (congrArg (Option.map ([c] ++ ·)) ih).trans (filter_map_append hfront _).symm

/-- A literal of a plain text opens with a mark and one quote, and both stand on its line. -/
theorem Plain.opening {cs mark quote : List Char} (h : Plain cs)
    (hopen : stringOpening? cs = some (mark, quote)) :
    ∃ q, (q = '\'' ∨ q = '"') ∧ quote = [q] ∧
      ∃ opening rest, cs = opening ++ rest ∧ opening.length = mark.length + quote.length ∧
        '\n' ∉ opening := by
  obtain ⟨hmem, hmark, hquote, hne⟩ := opening_of_stringOpening? hopen
  obtain ⟨q, rest, hdrop⟩ : ∃ q rest, cs.drop mark.length = q :: rest := by
    cases hdrop : cs.drop mark.length with
    | nil => exact absurd (hquote.trans (by rw [hdrop]; rfl)) hne
    | cons q rest => exact ⟨q, rest, rfl⟩
  rw [hdrop, leadingQuote_cons] at hquote
  split at hquote
  case isFalse => exact absurd hquote hne
  next hq =>
  split at hquote
  · next htriple =>
    have hstarts : [q, q, q] <+: cs.drop mark.length := by
      rw [hdrop]
      exact List.cons_prefix_cons.mpr ⟨rfl, List.isPrefixOf_iff_prefix.mp htriple⟩
    exact absurd (hstarts.isInfix.trans (List.drop_suffix _ _).isInfix)
      (h.noTriple q (by simpa using hq))
  · have hlength : (cs.take mark.length).length = mark.length := by
      simpa using congrArg List.length hmark
    refine ⟨q, hq, hquote, cs.take mark.length ++ [q], rest, ?_, ?_, ?_⟩
    · rw [List.append_assoc, List.singleton_append, ← hdrop, List.take_append_drop]
    · rw [List.length_append, hlength, hquote]
    · have hmarks : ∀ mark ∈ marks, '\n' ∉ mark := by decide
      have hfirst : '\n' ∉ cs.take mark.length := fun hfeed =>
        hmarks mark hmem (hmark ▸ List.mem_map.mpr ⟨'\n', hfeed, rfl⟩)
      have hlast : '\n' ≠ q := by rcases hq with rfl | rfl <;> decide
      simp [hfirst, hlast]

theorem isText_stringKind (mark : List Char) : (stringKind mark).isText = true := by
  unfold stringKind
  split
  · rfl
  · split <;> rfl

theorem stringRule_withReturns {cs : List Char} (h : Plain cs) :
    stringRule (withReturns cs) = (stringRule cs).map reflow := by
  have hopening := stopsAtLineEnd_stringOpening?.withReturns cs
  unfold stringRule
  rw [hopening]
  cases hopen : stringOpening? cs with
  | none => rfl
  | some opened =>
    obtain ⟨mark, quote⟩ := opened
    obtain ⟨q, hq, rfl, opening, rest, rfl, hlength, hline⟩ := h.opening hopen
    have hreturn : q ≠ '\r' := by rcases hq with rfl | rfl <;> decide
    have hfeed : '\n' ≠ q := by rcases hq with rfl | rfl <;> decide
    simp only [Option.map_some, withReturns_append, withReturns_of_not_mem hline, ← hlength,
      List.drop_left, List.take_left, stringBody?_withReturns hreturn]
    cases hbody : stringBody? [q] rest with
    | none => rfl
    | some body =>
      by_cases hover : '\n' ∈ body
      · have hnone : (some body).filter (fun body : List Char => !body.contains '\n') = none := by
          simp [Option.filter, hover]
        have hfault : (⟨.token (stringKind mark) (stringText mark body),
            opening ++ body ++ [q]⟩ : Lexeme).goesOver = true := by
          simp [goesOver, isText_stringKind, hover]
        rw [hnone]
        simp only [reflow, hfault, if_true]
      · have hsome : (some body).filter (fun body : List Char => !body.contains '\n') =
            some body := by
          simp [Option.filter, hover]
        have hchars : '\n' ∉ opening ++ body ++ [q] := by simp [hline, hover, hfeed]
        rw [hsome]
        exact congrArg some (reflow_of_not_mem (l := ⟨_, opening ++ body ++ [q]⟩) hchars).symm

/-- Trivia and line ends are there with the other line end too. -/
theorem found_withReturns {piece : Piece} (h : piece = .trivia ∨ piece = .lineEnd)
    (chars : List Char) :
    found piece (withReturns chars) = (found piece chars).map reflow := by
  by_cases hnil : chars = []
  · subst hnil
    rfl
  · have hstays : (⟨piece, chars⟩ : Lexeme).goesOver = false := by
      rcases h with rfl | rfl <;> rfl
    simp [found, hnil, reflow, hstays]

/-- With the other line end every rule finds the same, up to the line end. -/
theorem rule_withReturns {cs : List Char} (h : Plain cs) {rule : Rule} (hrule : rule ∈ rules) :
    rule (withReturns cs) = (rule cs).map reflow := by
  have hstops : ∀ {rule : Rule}, rule ∈ rules →
      rule ∈ [blankRule, commentRule, numberRule, nameRule, operatorRule] →
      rule (withReturns cs) = (rule cs).map reflow := fun hmem hstops =>
    map_reflow_of_stops hmem (stopsAtLineEnd_of_mem hstops) cs
  have hmem := hrule
  simp only [rules, List.mem_cons, List.not_mem_nil, or_false] at hmem
  rcases hmem with rfl | rfl | rfl | rfl | rfl | rfl | rfl | rfl
  · exact hstops hrule (by simp)
  · rw [continuationRule, continuationRule, leadingContinuation_withReturns h.noReturn,
      found_withReturns (Or.inl rfl)]
  · exact hstops hrule (by simp)
  · rw [lineEndRule, lineEndRule, leadingLineEnd_withReturns h.noReturn,
      found_withReturns (Or.inr rfl)]
  · exact stringRule_withReturns h
  · exact hstops hrule (by simp)
  · exact hstops hrule (by simp)
  · exact hstops hrule (by simp)

/-- **What a text starts with, with the other line end.** -/
theorem next_withReturns {cs : List Char} (h : Plain cs) :
    next (withReturns cs) = reflow (next cs) := by
  have hfound : rules.findSome? (fun rule => rule (withReturns cs)) =
      (rules.findSome? fun rule => rule cs).map reflow := by
    have hrules : ∀ rule ∈ rules, rule (withReturns cs) = (rule cs).map reflow := fun rule =>
      rule_withReturns h
    generalize rules = rs at hrules
    induction rs with
    | nil => rfl
    | cons rule rs ih =>
      rw [List.findSome?_cons, List.findSome?_cons, hrules rule List.mem_cons_self,
        ih fun r hr => hrules r (List.mem_cons_of_mem _ hr)]
      cases rule cs <;> rfl
  unfold next
  rw [hfound]
  cases hnone : rules.findSome? fun rule => rule cs with
  | some outcome => rfl
  | none =>
    -- a line feed would have been a line end
    have hhead : (withReturns cs).take 1 = cs.take 1 := by
      have hend : lineEndRule cs = none := by
        exact List.findSome?_eq_none_iff.mp hnone lineEndRule (by simp [rules])
      cases cs with
      | nil => rfl
      | cons c cs =>
        have hc : c ≠ '\n' := by
          rintro rfl
          cases hend
        rw [Text.withReturns_cons hc]
        rfl
    simp only [Option.map_none, hhead, reflow]

end Lexeme

open Lexeme (Plain)

/-! ## The scanner -/

/-- A plain text, and the same with the other line end. -/
def Returned (cs ds : List Char) : Prop := Plain cs ∧ ds = withReturns cs

theorem dropWhile_withReturns {p : Char → Bool} (hreturn : p '\r' = false) (hfeed : p '\n' = false)
    (cs : List Char) : (withReturns cs).dropWhile p = withReturns (cs.dropWhile p) := by
  induction cs with
  | nil => rfl
  | cons c cs ih =>
    by_cases hc : c = '\n'
    · subst hc
      rw [Text.withReturns_feed, List.dropWhile_cons_of_neg (by simp [hreturn]),
        List.dropWhile_cons_of_neg (by simp [hfeed]), Text.withReturns_feed]
    · rw [Text.withReturns_cons hc, List.dropWhile_cons, List.dropWhile_cons, ih]
      split
      · rfl
      · rw [Text.withReturns_cons hc]

theorem sameLayout_returned : SameLayout Returned where
  blanks := by
    rintro cs _ ⟨-, rfl⟩
    have hstops : Lexeme.StopsAtLineEnd (List.takeWhile Lexeme.isSpace) :=
      Lexeme.stopsAtLineEnd_takeWhile rfl rfl
    exact (hstops.withReturns cs).symm
  behind := by
    rintro cs _ ⟨hplain, rfl⟩
    exact ⟨hplain.suffix (List.dropWhile_suffix _), dropWhile_withReturns rfl rfl cs⟩
  nothing := by
    rintro cs _ ⟨-, rfl⟩
    cases cs with
    | nil => rfl
    | cons c cs =>
      by_cases hc : c = '\n'
      · subst hc
        rfl
      · rw [Text.withReturns_cons hc]
        rfl
  ends := by
    rintro cs _ ⟨-, rfl⟩
    exact Text.withReturns_eq_nil.symm

/-- The characters that a text literal stands for are on one line. -/
def Token.InOneLine (text : List Char) (t : Token) : Prop :=
  t.kind.isText = true →
    ∀ chars ∈ Text.cut? text t.span.start.offset t.span.stop.offset, '\n' ∉ chars

instance (text : List Char) (t : Token) : Decidable (t.InOneLine text) :=
  inferInstanceAs (Decidable (_ → ∀ chars ∈ Text.cut? text t.span.start.offset t.span.stop.offset,
    '\n' ∉ chars))

namespace Scan

variable {file : String} {text : List Char} {s s' t : Scan}

/-- The text literals so far are each on one line. -/
def OneLine (text : List Char) (s : Scan) : Prop := ∀ t ∈ s.emitted, t.InOneLine text

/-- Nothing but layout has been added to the tokens. -/
def AddsLayout (s s' : Scan) : Prop :=
  ∃ marks, s'.emitted = marks ++ s.emitted ∧ ∀ t ∈ marks, t.kind.isText = false

namespace AddsLayout

theorem refl (s : Scan) : AddsLayout s s := ⟨[], rfl, by simp⟩

theorem emit {kind : TokenKind} (hkind : kind.isText = false) (value : String)
    (chars : List Char) : AddsLayout s (s.emit file kind value chars) :=
  ⟨[⟨kind, value, s.spanOf file chars⟩], rfl, by simpa using hkind⟩

theorem trans {s₁ s₂ s₃ : Scan} (h : AddsLayout s₁ s₂) (h' : AddsLayout s₂ s₃) :
    AddsLayout s₁ s₃ := by
  obtain ⟨marks, heq, hmarks⟩ := h
  obtain ⟨marks', heq', hmarks'⟩ := h'
  refine ⟨marks' ++ marks, by rw [heq', heq, List.append_assoc], fun t ht => ?_⟩
  rcases List.mem_append.mp ht with ht | ht
  · exact hmarks' t ht
  · exact hmarks t ht

theorem closeBlocks (file : String) (target : Nat) (s : Scan) (indents : List Nat) :
    AddsLayout s (closeBlocks file target s indents) := by
  induction indents generalizing s with
  | nil => exact ⟨[], rfl, by simp⟩
  | cons top below ih =>
    unfold Scan.closeBlocks
    split
    · exact (emit rfl "" []).trans (ih _)
    · exact ⟨[], rfl, by simp⟩

theorem of_indentTo {target : Nat} (h : s.indentTo file target = .ok s') : AddsLayout s s' := by
  unfold indentTo at h
  split at h
  · split at h
    · cases h
      exact emit rfl "" []
    · cases h
  · simp only at h
    split at h
    · cases h
    · cases h
      exact closeBlocks file target s s.indents

theorem of_opened (h : s.opened file = .ok s') : AddsLayout s s' := by
  unfold opened at h
  split at h
  · rw [beginLine_eq] at h
    split at h
    · cases h
      exact ⟨[], rfl, by simp⟩
    · obtain ⟨marks, heq, hmarks⟩ := of_indentTo h
      exact ⟨marks, heq, hmarks⟩
  · cases h
    exact refl s

theorem endLine (file : String) (s : Scan) (chars : List Char) :
    AddsLayout s (s.endLine file chars) := by
  unfold Scan.endLine
  split
  · dsimp only
    split
    · exact emit rfl "\n" chars
    · exact ⟨[], rfl, by simp⟩
  · exact refl s

theorem finish (file : String) (s : Scan) : AddsLayout s (s.finish file) := by
  refine ⟨(s.closing file).reverse, ?_, fun t ht => ?_⟩
  · simpa using congrArg List.reverse (emitted_finish file s)
  · rcases mem_closing (List.mem_reverse.mp ht) with rfl | rfl | rfl <;> rfl

theorem oneLine_iff (h : AddsLayout s s') (text : List Char) :
    s'.OneLine text ↔ s.OneLine text := by
  obtain ⟨marks, heq, hmarks⟩ := h
  refine ⟨fun hall t ht => hall t (by simp [heq, ht]), fun hall t ht => ?_⟩
  rw [heq] at ht
  rcases List.mem_append.mp ht with hmark | hold
  · exact fun htext => absurd ((hmarks t hmark).symm.trans htext) Bool.false_ne_true
  · exact hall t hold

end AddsLayout

theorem Covers.opened (h : s.Covers text) (hopened : s.opened file = .ok s') :
    s'.Covers text := by
  unfold Scan.opened at hopened
  split at hopened
  · exact h.beginLine hopened
  · cases hopened
    exact h

/-- The token that stands for a lexeme is cut out of the text as it was read. -/
theorem Covers.cut? (h : s.Covers text) {l : Lexeme} (hl : Lexeme.next s.rest = .ok l) :
    Text.cut? text s.offset (s.offset + Text.byteLength l.chars) = some l.chars := by
  obtain ⟨done, hoffset, laid⟩ := h
  obtain ⟨rest, hrest⟩ := Lexeme.prefix_of_next hl
  rw [laid.text_eq, ← hrest, hoffset, ← List.append_assoc]
  exact Text.cut?_append done l.chars rest

/-- A lexeme keeps the text literals on one line each unless it is one that goes over a line end. -/
theorem oneLine_accept (h : s.Covers text) {l : Lexeme} (hl : Lexeme.next s.rest = .ok l)
    (file : String) : (s.accept file l).OneLine text ↔ s.OneLine text ∧ l.goesOver = false := by
  have hcut := h.cut? hl
  obtain ⟨piece, chars⟩ := l
  cases piece with
  | trivia => exact ⟨fun hall => ⟨hall, rfl⟩, fun hall => hall.1⟩
  | lineEnd =>
    have hadds := (AddsLayout.endLine file s chars).oneLine_iff text
    exact ⟨fun hall => ⟨hadds.mp hall, rfl⟩, fun hall => hadds.mpr hall.1⟩
  | token kind value =>
    have hnew : (Token.mk kind value (s.spanOf file chars)).InOneLine text ↔
        (kind.isText && chars.contains '\n') = false := by
      simp only [Token.InOneLine, spanOf, hcut]
      cases kind.isText <;> simp
    rw [Lexeme.goesOver, ← hnew]
    constructor
    · exact fun hall => ⟨fun t ht => hall t (List.mem_cons_of_mem _ ht), hall _ List.mem_cons_self⟩
    · intro hall t ht
      rcases List.mem_cons.mp ht with rfl | hold
      · exact hall.2
      · exact hall.1 t hold

/-- What has come over a line end stays in the stream. -/
theorem oneLine_of_step (h : s.Covers text) (hstep : s.step file = .ok s')
    (hall : s'.OneLine text) : s.OneLine text := by
  obtain ⟨mid, hmid, hread⟩ := exists_of_step hstep
  have hmid' := (AddsLayout.of_opened hmid).oneLine_iff text
  rcases hread with ⟨-, rfl⟩ | ⟨l, hl, rfl⟩
  · exact hmid'.mp hall
  · exact hmid'.mp ((oneLine_accept (h.opened hmid) hl file).mp hall).1

theorem oneLine_of_run (h : s.Covers text) (hrun : s.run file = .ok s')
    (hall : s'.OneLine text) : s.OneLine text := by
  fun_induction Scan.run file s with
  | case1 s hnil =>
    cases hrun
    exact hall
  | case2 s hne fault hfault => cases hrun
  | case3 s hne next hnext ih => exact oneLine_of_step h hnext (ih (h.step hnext) hrun)

/-- What comes of a plain text with either line end: the scanners are abreast and no literal goes
over a line end, or the second fails, and the first has such a literal if it does not fail. -/
inductive Outcome (text : List Char) : Except Fault Scan → Except Fault Scan → Prop where
  | abreast {s t : Scan} (same : Abreast Returned s t) (oneLine : s.OneLine text) :
      Outcome text (.ok s) (.ok t)
  | refused {first : Except Fault Scan} {fault : Fault}
      (broken : ∀ s, first = .ok s → ¬ s.OneLine text) : Outcome text first (.error fault)

theorem Outcome.faults (text : List Char) (f g : Fault) : Outcome text (.error f) (.error g) :=
  .refused (by simp)

namespace Abreast

variable (file)

theorem outcome_readLexeme (h : Abreast Returned s t) (hcovers : s.Covers text)
    (hone : s.OneLine text) : Outcome text (s.readLexeme file) (t.readLexeme file) := by
  have hnext : Lexeme.next t.rest = Lexeme.reflow (Lexeme.next s.rest) := by
    rw [h.rest.2, Lexeme.next_withReturns h.rest.1]
  unfold Scan.readLexeme
  rw [hnext]
  cases hl : Lexeme.next s.rest with
  | error cause => exact .faults text _ _
  | ok l =>
    have haccept := oneLine_accept hcovers hl file
    cases hover : l.goesOver with
    | true =>
      simp only [Lexeme.reflow, hover, if_true]
      refine .refused ?_
      rintro _ ⟨⟩ hall
      exact absurd (hover.symm.trans (haccept.mp hall).2) (by decide)
    | false =>
      simp only [Lexeme.reflow, hover, if_false, Bool.false_eq_true]
      refine .abreast (h.accept file l.piece ?_) (haccept.mpr ⟨hone, hover⟩)
      obtain ⟨rest, hrest⟩ := Lexeme.prefix_of_next hl
      refine ⟨h.rest.1.suffix (List.drop_suffix l.chars.length s.rest), ?_⟩
      rw [h.rest.2, ← hrest, List.drop_left, withReturns_append, List.drop_left]

/-- **A step with either line end.** -/
theorem outcome_step (h : Abreast Returned s t) (hcovers : s.Covers text)
    (hone : s.OneLine text) : Outcome text (s.step file) (t.step file) := by
  rcases h.step_cases file sameLayout_returned with
    ⟨f, g, hs, ht, -⟩ | ⟨s', t', hopened, h', hread⟩
  · rw [hs, ht]
    exact .faults text f g
  · have hone' := ((AddsLayout.of_opened hopened).oneLine_iff text).mpr hone
    rcases hread with ⟨-, -, hs, ht⟩ | ⟨-, hs, ht⟩
    · rw [hs, ht]
      exact .abreast h' hone'
    · rw [hs, ht]
      exact h'.outcome_readLexeme file (hcovers.opened hopened) hone'

/-- **A run with either line end.** -/
theorem outcome_run (h : Abreast Returned s t) (hcovers : s.Covers text)
    (hone : s.OneLine text) : Outcome text (s.run file) (t.run file) := by
  fun_induction Scan.run file s generalizing t with
  | case1 s hnil =>
    rw [run_nil ((sameLayout_returned.ends h.rest).mp hnil)]
    exact .abreast h hone
  | case2 s hne fault hfault =>
    have hne' : t.rest ≠ [] := fun heq => hne ((sameLayout_returned.ends h.rest).mpr heq)
    have houtcome := h.outcome_step file hcovers hone
    rw [hfault] at houtcome
    generalize hstep : t.step file = second at houtcome
    cases houtcome with
    | refused =>
      rw [run_of_fault hne' hstep]
      exact .faults text fault _
  | case3 s hne next hnext ih =>
    have hne' : t.rest ≠ [] := fun heq => hne ((sameLayout_returned.ends h.rest).mpr heq)
    have houtcome := h.outcome_step file hcovers hone
    rw [hnext] at houtcome
    generalize hstep : t.step file = second at houtcome
    cases houtcome with
    | abreast h' hone' =>
      rw [run_of_step hne' hstep]
      exact ih h' (hcovers.step hnext) hone'
    | refused broken =>
      rw [run_of_fault hne' hstep]
      -- the first scanner may go on, but the literal stays among its tokens
      exact .refused fun s' hrun hall =>
        broken next rfl (oneLine_of_run (hcovers.step hnext) hrun hall)

end Abreast
end Scan

/-! ## The stream -/

/-- **The line end makes no difference to what the tokens say exactly if no text literal goes over
one.**  A script that has such a literal is refused with the other line end. -/
theorem tokenize_withReturns_iff {source file : String} (h : Plain source.toList) :
    (tokenize (String.ofList (withReturns source.toList)) file).toOption.map
        (List.map Token.content) =
      (tokenize source file).toOption.map (List.map Token.content) ↔
    ∀ tokens, tokenize source file = .ok tokens → ∀ t ∈ tokens, t.InOneLine source.toList := by
  have hstart : Scan.Abreast Returned (.ofText source.toList)
      (.ofText (withReturns source.toList)) :=
    ⟨⟨h, rfl⟩, rfl, rfl, rfl, rfl⟩
  have houtcome := hstart.outcome_run file (.ofText source.toList)
    (by simp [Scan.OneLine, Scan.ofText])
  have hfinish : ∀ s : Scan, (∀ t ∈ (s.finish file).emitted.reverse, t.InOneLine source.toList) ↔
      s.OneLine source.toList := by
    intro s
    simpa [Scan.OneLine] using (Scan.AddsLayout.finish file s).oneLine_iff source.toList
  rw [tokenize, tokenize, String.toList_ofList]
  generalize Scan.run file (.ofText source.toList) = first at houtcome
  generalize Scan.run file (.ofText (withReturns source.toList)) = second at houtcome
  cases houtcome with
  | abreast same oneLine =>
    refine iff_of_true ?_ ?_
    · exact congrArg some (same.finish file).symm
    · rintro _ ⟨⟩
      exact (hfinish _).mpr oneLine
  | refused broken =>
    cases first with
    | error fault => exact iff_of_true rfl (by rintro _ ⟨⟩)
    | ok s =>
      refine iff_of_false (by rintro ⟨⟩) fun hall => broken s rfl ?_
      exact (hfinish s).mp (hall _ rfl)

/-- A block, a comment, a line that goes on after a backslash, brackets over a line end and a
literal. -/
def foldedScript : String := "if x: # é\n\ty = 'a\\n' \\\n  + (1,\n2)\n"

theorem tokenize_withReturns_folded :
    Plain foldedScript.toList ∧
      (tokenize (String.ofList (withReturns foldedScript.toList)) "main.py").toOption.map
          (List.map Token.content) =
        (tokenize foldedScript "main.py").toOption.map (List.map Token.content) := by
  have hplain : Plain foldedScript.toList :=
    ⟨by decide +kernel, List.forall_mem_cons.mpr
      ⟨by decide +kernel, List.forall_mem_singleton.mpr (by decide +kernel)⟩⟩
  have hlines : (tokenize foldedScript "main.py").toOption.all (fun tokens =>
      tokens.all fun t => decide (t.InOneLine foldedScript.toList)) = true := by
    decide +kernel
  refine ⟨hplain, (tokenize_withReturns_iff hplain).mpr fun tokens htokens t ht => ?_⟩
  rw [htokens] at hlines
  exact of_decide_eq_true (List.all_eq_true.mp hlines t ht)

/-- A line that goes on after a backslash in a literal: with a line feed the literal goes on, with
the other line end it is refused. -/
theorem literal_refused_with_returns :
    Plain "'a\\\nb'".toList ∧
      (tokenize "'a\\\nb'" "shell").toOption.map (List.map Token.content) =
        some [(.string, "ab"), (.newline, ""), (.eof, "EOF")] ∧
      tokenize (String.ofList (withReturns "'a\\\nb'".toList)) "shell" =
        .error ⟨.unterminatedString, ⟨0, "shell"⟩⟩ := by
  have hplain : Plain "'a\\\nb'".toList :=
    ⟨by decide +kernel, List.forall_mem_cons.mpr
      ⟨by decide +kernel, List.forall_mem_singleton.mpr (by decide +kernel)⟩⟩
  exact ⟨hplain, by decide +kernel, by decide +kernel⟩

end SlotTree

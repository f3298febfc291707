import Mathlib.Data.List.DropRight
import SlotTree.Proofs.Token.Fragment
import SlotTree.Source.Layout
import SlotTree.Token.Stream

/-!
# Scanning written lines

The scanner goes through written source line by line.  A line is a fragment that starts in
the first column, or it is empty.  Within a line the scanner emits the tokens of the
fragment and nothing else (`Scan.run_lexes`).  A line end closes a line that has tokens
and is passed over after one that has none, so what comes out is the tokens of the lines
that are not empty, each with a line end behind it (`tokenize_written`).

The canonical layout takes nothing off a line, since no line ends in a blank, and of the
lines it takes the empty ones at the end.  Neither makes a difference to the tokens.
-/

namespace SlotTree

open Fragment (Inner)

/-- The tokens of a line with its end, if there are any. -/
def lineTokens (bs : List Bare) : List Bare := if bs = [] then [] else bs ++ [(.newline, "")]

namespace Scan

/-! ## Single steps -/

/-- A step is the beginning of a run. -/
theorem run_of_step {file : String} {s s' : Scan} (hne : s.rest ≠ [])
    (h : s.step file = .ok s') : s.run file = s'.run file := by
  rw [run, dif_neg hne]
  split
  · next fault hfault =>
    rw [h] at hfault
    cases hfault
  · next next hnext =>
    rw [h] at hnext
    cases hnext
    rfl

/-- A step that fails ends the run. -/
theorem run_of_fault {file : String} {s : Scan} {fault : Fault} (hne : s.rest ≠ [])
    (h : s.step file = .error fault) : s.run file = .error fault := by
  rw [run, dif_neg hne]
  split
  · next fault' hfault =>
    rw [h] at hfault
    cases hfault
    rfl
  · next next hnext =>
    rw [h] at hnext
    cases hnext

theorem run_of_step_eq {file : String} {s t : Scan} (hs : s.rest ≠ []) (ht : t.rest ≠ [])
    (h : s.step file = t.step file) : s.run file = t.run file := by
  cases hstep : t.step file with
  | error fault => rw [run_of_fault hs (h.trans hstep), run_of_fault ht hstep]
  | ok next => rw [run_of_step hs (h.trans hstep), run_of_step ht hstep]

theorem run_nil {file : String} {s : Scan} (h : s.rest = []) : s.run file = .ok s := by
  rw [run, dif_pos h]

/-- Within a line a step reads a lexeme. -/
theorem run_of_next {file : String} {s : Scan} {l : Lexeme} (hstart : s.lineStart = false)
    (h : Lexeme.next s.rest = .ok l) : s.run file = (s.accept file l).run file := by
  have hne : s.rest ≠ [] := by
    intro hnil
    rw [hnil] at h
    cases h
  refine run_of_step hne ?_
  have hempty : s.rest.isEmpty = false := by simpa using hne
  simp [step, hstart, hempty, readLexeme, h]

/-- Within a line a step fails where no lexeme begins. -/
theorem run_of_next_error {file : String} {s : Scan} {cause : Cause} (hstart : s.lineStart = false)
    (hne : s.rest ≠ []) (h : Lexeme.next s.rest = .error cause) :
    s.run file = .error ⟨cause, s.position file⟩ := by
  refine run_of_fault hne ?_
  have hempty : s.rest.isEmpty = false := by simpa using hne
  simp [step, hstart, hempty, readLexeme, h]

/-- Within a line the scanner passes over a lexeme that does not end the line. -/
theorem exists_run_past {file : String} {s : Scan} {l : Lexeme} {rest : List Char}
    (hstart : s.lineStart = false) (hrest : s.rest = l.chars ++ rest)
    (hl : Lexeme.next s.rest = .ok l) (hline : l.piece ≠ .lineEnd) :
    ∃ s' : Scan, s.run file = s'.run file ∧ s'.rest = rest ∧
      s'.offset = s.offset + Text.byteLength l.chars ∧ s'.lineStart = false := by
  refine ⟨s.accept file l, run_of_next hstart hl, ?_, ?_⟩
  · rw [rest_accept, hrest, List.drop_left]
  · obtain ⟨piece, chars⟩ := l
    cases piece with
    | trivia => exact ⟨rfl, hstart⟩
    | lineEnd => exact absurd rfl hline
    | token kind text => exact ⟨rfl, hstart⟩

/-- Outside of brackets a line end closes the line, if it is open. -/
theorem endLine_of_depth {file : String} {s : Scan} {chars : List Char} (h : s.depth = 0) :
    s.endLine file chars =
      { if s.lineOpen then s.emit file .newline "\n" chars else s with lineStart := true } := by
  rw [endLine, h]
  rfl

/-! ## Within a line -/

/-- What is left of a run after the tokens `bs`: the text `rest`, on the same line. -/
structure Passes (s s' : Scan) (rest : List Char) (bs : List Bare) : Prop where
  rest_eq : s'.rest = rest
  lineStart : s'.lineStart = false
  indents : s'.indents = s.indents
  depth : s'.depth = depthThrough bs s.depth
  emitted : s'.emitted.map Token.bare = bs.reverse ++ s.emitted.map Token.bare

/-- **The scanner emits the tokens that a text breaks into.** -/
theorem run_lexes {rest cs : List Char} {bs : List Bare} (h : Lexes rest cs bs) (file : String) :
    ∀ s : Scan, s.rest = cs ++ rest → s.lineStart = false →
      ∃ s', s.run file = s'.run file ∧ s.Passes s' rest bs := by
  induction h with
  | done => exact fun s hrest hstart => ⟨s, rfl, hrest, hstart, rfl, rfl, rfl⟩
  | @token chars cs kind text bs reads more ih =>
    intro s hrest hstart
    rw [List.append_assoc] at hrest
    rw [← hrest] at reads
    obtain ⟨s', hrun, hpasses⟩ :=
      ih (s.accept file ⟨.token kind text, chars⟩) (by simp [hrest]) hstart
    have hbare : (Token.mk kind text (s.spanOf file chars)).bare = (kind, text) := by
      simp [Token.bare, Lexeme.kind_ne_of_next reads]
    refine ⟨s', (run_of_next hstart reads).trans hrun, hpasses.rest_eq, hpasses.lineStart,
      hpasses.indents, hpasses.depth, ?_⟩
    rw [hpasses.emitted]
    simp [accept, advance, emit, hbare]
  | @trivia chars cs bs reads more ih =>
    intro s hrest hstart
    rw [List.append_assoc] at hrest
    rw [← hrest] at reads
    obtain ⟨s', hrun, hpasses⟩ := ih (s.accept file ⟨.trivia, chars⟩) (by simp [hrest]) hstart
    exact ⟨s', (run_of_next hstart reads).trans hrun, hpasses.rest_eq, hpasses.lineStart,
      hpasses.indents, hpasses.depth, hpasses.emitted⟩

/-! ## Lines -/

/-- A line begins at the scanner, outside of all blocks and brackets, and the tokens so far
are `bs`, of which the last, if there is one, ended a line. -/
structure AtLine (s : Scan) (bs : List Bare) : Prop where
  lineStart : s.lineStart = true
  indents : s.indents = []
  depth : s.depth = 0
  emitted : s.emitted.map Token.bare = bs.reverse
  closed : ∀ b ∈ bs.getLast?, b.1 = .newline

theorem AtLine.ofText (text : List Char) : (ofText text).AtLine [] :=
  ⟨rfl, rfl, rfl, rfl, by simp⟩

/-- Whether a line is open can be told from what the tokens say. -/
theorem lineOpen_eq {s : Scan} {bs : List Bare} (h : s.emitted.map Token.bare = bs.reverse) :
    s.lineOpen = match bs.getLast? with
      | none => false
      | some b => b.1 != .newline := by
  rw [← List.head?_reverse, ← h, lineOpen]
  cases s.emitted <;> rfl

theorem AtLine.lineOpen {s : Scan} {bs : List Bare} (h : s.AtLine bs) : s.lineOpen = false := by
  rw [lineOpen_eq h.emitted]
  cases hlast : bs.getLast? with
  | none => rfl
  | some b => simp [h.closed b hlast]

/-- The tokens of a line leave it open. -/
theorem lineOpen_of_lexes {rest cs : List Char} {us vs : List Bare} {s : Scan}
    (h : Lexes rest cs vs) (hne : vs ≠ [])
    (hemitted : s.emitted.map Token.bare = (us ++ vs).reverse) : s.lineOpen = true := by
  have hkinds : ∀ b ∈ vs, b.1 ≠ .newline := by
    clear hne hemitted
    induction h with
    | done => simp
    | token reads _ ih =>
      intro b hb
      rcases List.mem_cons.mp hb with rfl | hb
      · exact (Lexeme.kind_ne_of_next reads).1
      · exact ih b hb
    | trivia _ _ ih => exact ih
  obtain ⟨ws, b, rfl⟩ : ∃ ws b, vs = ws ++ [b] := by
    rcases List.eq_nil_or_concat vs with rfl | ⟨ws, b, rfl⟩
    · exact absurd rfl hne
    · exact ⟨ws, b, List.concat_eq_append⟩
  rw [lineOpen_eq hemitted, ← List.append_assoc, List.getLast?_append]
  simpa using hkinds b (by simp)

/-- Beginning a line that neither opens nor closes a block changes nothing else. -/
theorem run_of_beginLine {file : String} {s : Scan} (hstart : s.lineStart = true)
    (hne : s.rest ≠ []) (h : s.beginLine file = .ok { s with lineStart := false }) :
    s.run file = ({ s with lineStart := false } : Scan).run file := by
  refine run_of_step_eq hne hne ?_
  simp only [step, hstart, if_true, h]
  rfl

/-- A line that starts in the first column opens no block. -/
theorem run_of_opens {file : String} {s : Scan} {bs : List Bare} (h : s.AtLine bs)
    (hopens : Opens s.rest) : s.run file = ({ s with lineStart := false } : Scan).run file := by
  obtain ⟨c, cs, hrest, hlayout, -⟩ := hopens
  simp only [Lexeme.isLayout, Bool.or_eq_false_iff] at hlayout
  obtain ⟨⟨⟨hspace, -⟩, hhash⟩, hend⟩ := hlayout
  have hbegin : s.beginLine file = .ok { s with lineStart := false } := by
    have hindents := h.indents
    obtain ⟨rest, offset, emitted, indents, depth, lineStart⟩ := s
    simp only at hrest hindents
    subst hrest hindents
    simp [beginLine, advance, hspace, hend, hhash, indentTo, column, closeBlocks]
  exact run_of_beginLine h.lineStart (by simp [hrest]) hbegin

/-- The scanner passes over an empty line. -/
theorem run_emptyLine {file : String} {s : Scan} {bs : List Bare} {rest : List Char}
    (h : s.AtLine bs) (hrest : s.rest = '\n' :: rest) :
    ∃ s' : Scan, s.run file = s'.run file ∧ s'.rest = rest ∧ s'.AtLine bs := by
  have hbegin : s.beginLine file = .ok { s with lineStart := false } := by
    obtain ⟨text, offset, emitted, indents, depth, lineStart⟩ := s
    simp only at hrest
    subst hrest
    have hspace : Lexeme.isSpace '\n' = false := rfl
    have hend : Lexeme.isLineEndChar '\n' = true := rfl
    simp [beginLine, advance, hspace, hend]
  have hnext : Lexeme.next ({ s with lineStart := false } : Scan).rest =
      .ok ⟨.lineEnd, ['\n']⟩ := by
    rw [hrest]
    exact Lexeme.next_lineFeed rest
  have hstep := run_of_beginLine h.lineStart (by simp [hrest]) hbegin
  have hopen : ({ s with lineStart := false } : Scan).lineOpen = false := h.lineOpen
  refine ⟨_, hstep.trans (run_of_next rfl hnext), by simp [hrest], ?_⟩
  simp only [accept]
  have hdepth : ({ s with lineStart := false } : Scan).depth = 0 := h.depth
  rw [endLine_of_depth hdepth, hopen]
  exact ⟨rfl, h.indents, h.depth, h.emitted, h.closed⟩

/-- The scanner ends a line that has tokens. -/
theorem run_fragment {file : String} {s : Scan} {us vs : List Bare} {cs rest : List Char}
    (h : s.AtLine us) (hfragment : Fragment cs vs) (hrest : s.rest = cs ++ '\n' :: rest) :
    ∃ s' : Scan, s.run file = s'.run file ∧ s'.rest = rest ∧ s'.AtLine (us ++ lineTokens vs) := by
  have hlexes := hfragment.lexes ('\n' :: rest) (Separated.cons (by decide) (by decide))
  have hopens : Opens s.rest := by
    rw [hrest]
    exact hfragment.opens.append _
  obtain ⟨s', hrun, hpasses⟩ := run_lexes hlexes file { s with lineStart := false } hrest rfl
  have hdepth : s'.depth = 0 := by
    rw [hpasses.depth, hfragment.balanced]
    exact h.depth
  have hemitted : s'.emitted.map Token.bare = (us ++ vs).reverse := by
    rw [hpasses.emitted, List.reverse_append]
    exact congrArg _ h.emitted
  have hopen := lineOpen_of_lexes hlexes hfragment.nonempty hemitted
  have hnext : Lexeme.next s'.rest = .ok ⟨.lineEnd, ['\n']⟩ := by
    rw [hpasses.rest_eq]
    exact Lexeme.next_lineFeed rest
  refine ⟨_, (run_of_opens h hopens).trans (hrun.trans (run_of_next hpasses.lineStart hnext)),
    by simp [hpasses.rest_eq], ?_⟩
  simp only [accept]
  rw [endLine_of_depth hdepth, hopen]
  refine ⟨rfl, hpasses.indents.trans h.indents, hdepth, ?_, ?_⟩
  · simp [advance, emit, hemitted, lineTokens, hfragment.nonempty, Token.bare]
  · simp [lineTokens, hfragment.nonempty]

/-- The scanner goes through lines that each have a line end. -/
theorem run_lines (file : String) {rows : List (List Char × List Bare)}
    (hrows : ∀ r ∈ rows, Inner r.1 r.2) {s : Scan} {bs : List Bare} {rest : List Char}
    (h : s.AtLine bs) (hrest : s.rest = Source.endLines (rows.map Prod.fst) ++ rest) :
    ∃ s' : Scan, s.run file = s'.run file ∧ s'.rest = rest ∧
      s'.AtLine (bs ++ rows.flatMap fun r => lineTokens r.2) := by
  induction rows generalizing s bs with
  | nil => exact ⟨s, rfl, hrest, by simpa using h⟩
  | cons r rows ih =>
    have hline : s.rest = r.1 ++ '\n' :: (Source.endLines (rows.map Prod.fst) ++ rest) := by
      simpa [Source.endLines] using hrest
    -- either way one line is gone, and its tokens have been emitted
    obtain ⟨s', hrun, hrest', hline'⟩ : ∃ s' : Scan, s.run file = s'.run file ∧
        s'.rest = Source.endLines (rows.map Prod.fst) ++ rest ∧
        s'.AtLine (bs ++ lineTokens r.2) := by
      rcases hrows r List.mem_cons_self with ⟨hchars, htokens⟩ | hfragment
      · rw [hchars] at hline
        rw [htokens]
        simpa [lineTokens] using run_emptyLine h hline
      · exact run_fragment h hfragment hline
    obtain ⟨s'', hrun', hrest'', hlines⟩ :=
      ih (fun r' hr' => hrows r' (List.mem_cons_of_mem r hr')) hline' hrest'
    exact ⟨s'', hrun.trans hrun', hrest'', by simpa using hlines⟩

/-- Where the text ends at the beginning of a line, no line is left to be closed. -/
theorem finish_atLine {file : String} {s : Scan} {bs : List Bare} (h : s.AtLine bs) :
    (s.finish file).emitted.map Token.bare = (bs ++ [(TokenKind.eof, "")]).reverse := by
  simp [finish, h.lineOpen, h.indents, emit, h.emitted, Token.bare]

/-- Where the text ends within a line, the line is closed. -/
theorem finish_open {file : String} {s : Scan} {bs : List Bare} (hopen : s.lineOpen = true)
    (hindents : s.indents = []) (hemitted : s.emitted.map Token.bare = bs.reverse) :
    (s.finish file).emitted.map Token.bare =
      (bs ++ [(TokenKind.newline, ""), (TokenKind.eof, "")]).reverse := by
  simp [finish, hopen, hindents, emit, hemitted, Token.bare]

end Scan

/-! ## Whole scripts -/

/-- The tokens of lines of which the last may be without a line end. -/
theorem tokenize_lines {rows : List (List Char × List Bare)} {cs : List Char} {bs : List Bare}
    (hrows : ∀ r ∈ rows, Inner r.1 r.2) (hlast : Inner cs bs) (file : String) :
    ∃ tokens, tokenize (String.ofList (Source.endLines (rows.map Prod.fst) ++ cs)) file =
        .ok tokens ∧
      tokens.map Token.bare =
        (rows.flatMap fun r => lineTokens r.2) ++ (lineTokens bs ++ [(.eof, "")]) := by
  obtain ⟨s, hrun, hrest, hline⟩ :=
    Scan.run_lines file hrows (Scan.AtLine.ofText _) rfl
  rw [List.nil_append] at hline
  have htokenize : ∀ s' : Scan, s.run file = .ok s' →
      tokenize (String.ofList (Source.endLines (rows.map Prod.fst) ++ cs)) file =
        .ok (s'.finish file).emitted.reverse := by
    intro s' hs'
    rw [tokenize, String.toList_ofList, hrun, hs']
    rfl
  rcases hlast with ⟨rfl, rfl⟩ | hfragment
  · refine ⟨_, htokenize s (Scan.run_nil hrest), ?_⟩
    rw [List.map_reverse, Scan.finish_atLine hline]
    simp [lineTokens]
  · have hlexes := hfragment.lexes [] Separated.nil
    have hopens : Opens s.rest := by
      rw [hrest]
      exact hfragment.opens
    obtain ⟨s', hrun', hpasses⟩ := Scan.run_lexes hlexes file { s with lineStart := false }
      (by simpa using hrest) rfl
    have hemitted : s'.emitted.map Token.bare =
        ((rows.flatMap fun r => lineTokens r.2) ++ bs).reverse := by
      rw [hpasses.emitted, List.reverse_append]
      exact congrArg _ hline.emitted
    have hopen := Scan.lineOpen_of_lexes hlexes hfragment.nonempty hemitted
    have hend : s.run file = .ok s' :=
      (Scan.run_of_opens hline hopens).trans (hrun'.trans (Scan.run_nil hpasses.rest_eq))
    refine ⟨_, htokenize s' hend, ?_⟩
    rw [List.map_reverse,
      Scan.finish_open hopen (hpasses.indents.trans hline.indents) hemitted]
    simp [lineTokens, hfragment.nonempty]

/-! ## Layout -/

namespace Text

theorem lines_append {l : List Char} (h : '\n' ∉ l) (rest : List Char) :
    lines (l ++ '\n' :: rest) = (l ++ ['\n']) :: lines rest := by
  induction l with
  | nil => simp [lines]
  | cons c l ih =>
    simp only [List.mem_cons, not_or] at h
    have hc : (c == '\n') = false := by simpa using Ne.symm h.1
    rw [List.cons_append, lines, hc, ih h.2]
    rfl

theorem lines_of_not_mem {l : List Char} (h : '\n' ∉ l) : lines l = if l = [] then [] else [l] := by
  induction l with
  | nil => rfl
  | cons c l ih =>
    simp only [List.mem_cons, not_or] at h
    have hc : (c == '\n') = false := by simpa using Ne.symm h.1
    rw [lines, hc, ih h.2]
    cases l <;> simp

/-- Cutting off the end of a list is `List.rdropWhile`. -/
theorem dropEndWhile_eq {α : Type} (p : α → Bool) (l : List α) :
    dropEndWhile p l = l.rdropWhile p := rfl

/-- Trimming drops the blanks at the end. -/
theorem trimRight_eq (cs : List Char) : trimRight cs = cs.rdropWhile isBlank := rfl

/-- A line that is empty or ends in something visible loses its line end and nothing else. -/
theorem trimRight_of_closes {cs : List Char} (h : cs = [] ∨ Closes cs) :
    trimRight cs = cs ∧ trimRight (cs ++ ['\n']) = cs := by
  have hkept : cs.rdropWhile isBlank = cs := by
    rcases h with rfl | ⟨ds, c, rfl, hc⟩
    · rfl
    · rw [List.rdropWhile_concat_neg _ _ _ (by simp [hc])]
  rw [trimRight_eq, trimRight_eq, List.rdropWhile_concat_pos _ _ _ (by decide)]
  exact ⟨hkept, hkept⟩

end Text

namespace Source

open Text

/-- Between lines stands a line feed, so each but the last has one. -/
theorem intercalate_append (ls : List (List Char)) (l : List Char) :
    ['\n'].intercalate (ls ++ [l]) = endLines ls ++ l := by
  induction ls with
  | nil => simp [endLines]
  | cons k ls ih =>
    rw [List.cons_append, List.intercalate_cons_of_ne_nil (by simp), ih]
    simp [endLines]

/-- Only empty lines are dropped. -/
theorem exists_dropEmptyEnd_append (ls : List (List Char)) :
    ∃ n, ls = ls.rdropWhile List.isEmpty ++ List.replicate n [] :=
  exists_dropEndWhile_append (fun _ h => List.isEmpty_iff.mp h) ls

/-- Trimmed lines are themselves, but that a line feed at the very end begins no line. -/
theorem map_trimRight_lines_intercalate {ls : List (List Char)}
    (h : ∀ l ∈ ls, '\n' ∉ l ∧ (l = [] ∨ Closes l)) :
    (lines (['\n'].intercalate ls)).map trimRight = ls ∨
      (lines (['\n'].intercalate ls)).map trimRight ++ [[]] = ls := by
  induction ls with
  | nil => exact .inl rfl
  | cons l ls ih =>
    obtain ⟨hline, hcloses⟩ := h l List.mem_cons_self
    obtain ⟨htrim, hfeed⟩ := trimRight_of_closes hcloses
    cases ls with
    | nil =>
      rw [List.intercalate_singleton, lines_of_not_mem hline]
      split
      · next hnil => exact .inr (by rw [hnil, List.map_nil, List.nil_append])
      · exact .inl (by rw [List.map_singleton, htrim])
    | cons k ls =>
      have hrest := ih fun l' hl' => h l' (List.mem_cons_of_mem l hl')
      rw [List.intercalate_cons_cons, List.append_assoc, List.singleton_append,
        lines_append hline, List.map_cons, hfeed, List.cons_append]
      exact hrest.imp (congrArg (l :: ·)) (congrArg (l :: ·))

/-- **The canonical layout of lines without blanks at their ends** drops the empty ones at the
end. -/
theorem formatChars_intercalate {ls : List (List Char)}
    (h : ∀ l ∈ ls, '\n' ∉ l ∧ (l = [] ∨ Closes l)) :
    formatChars (['\n'].intercalate ls) = endLines (ls.rdropWhile List.isEmpty) := by
  rw [formatChars, dropEndWhile_eq]
  rcases map_trimRight_lines_intercalate h with hlines | hlines
  · rw [hlines]
  · rw [← hlines, List.rdropWhile_concat_pos _ _ _ rfl, hlines]

/-- **The canonical layout of written lines** drops the empty ones at the end. -/
theorem formatChars_lines {rows : List (List Char × List Bare)}
    (h : ∀ r ∈ rows, Inner r.1 r.2) :
    formatChars (['\n'].intercalate (rows.map Prod.fst)) =
      endLines ((rows.map Prod.fst).rdropWhile List.isEmpty) := by
  refine formatChars_intercalate fun l hl => ?_
  obtain ⟨r, hr, rfl⟩ := List.mem_map.mp hl
  exact ⟨(h r hr).oneLine, (h r hr).closes⟩

end Source

/-- The text of lines, in either layout. -/
def layOut (rows : List (List Char × List Bare)) (layout : Bool) : String :=
  let text := "\n".intercalate (rows.map fun r => String.ofList r.1)
  if layout then Source.format text else text

/-- **The tokens of written lines** are those of the lines that are not empty, each with a
line end behind them, in either layout. -/
theorem tokenize_layOut {rows : List (List Char × List Bare)} (h : ∀ r ∈ rows, Inner r.1 r.2)
    (layout : Bool) (file : String) :
    ∃ tokens, tokenize (layOut rows layout) file = .ok tokens ∧
      tokens.map Token.bare = (rows.flatMap fun r => lineTokens r.2) ++ [(.eof, "")] := by
  have htext : ("\n".intercalate (rows.map fun r => String.ofList r.1)).toList =
      ['\n'].intercalate (rows.map Prod.fst) := by
    rw [String.toList_intercalate, List.map_map]
    congr 1
    exact List.map_congr_left fun r _ => String.toList_ofList
  cases layout with
  | false =>
    have hplain : layOut rows false =
        String.ofList (['\n'].intercalate (rows.map Prod.fst)) := by
      rw [← htext, String.ofList_toList]
      rfl
    rw [hplain]
    rcases List.eq_nil_or_concat rows with rfl | ⟨init, last, rfl⟩
    · exact tokenize_lines h (Or.inl ⟨rfl, rfl⟩) file
    · rw [List.concat_eq_append] at h ⊢
      rw [List.map_append, List.map_singleton, Source.intercalate_append]
      have hinit : ∀ r ∈ init, Inner r.1 r.2 := fun r hr => h r (List.mem_append_left _ hr)
      obtain ⟨tokens, htokens, hbare⟩ := tokenize_lines hinit (h last (by simp)) file
      exact ⟨tokens, htokens, by simpa using hbare⟩
  | true =>
    have hformat : layOut rows true =
        String.ofList (Source.endLines ((rows.map Prod.fst).rdropWhile List.isEmpty) ++ []) := by
      rw [List.append_nil, ← Source.formatChars_lines h, ← htext]
      rfl
    obtain ⟨n, hn⟩ := Source.exists_dropEmptyEnd_append (rows.map Prod.fst)
    obtain ⟨kept, dropped, rfl, hkept, hdropped⟩ := List.map_eq_append_iff.mp hn
    have hempty : (dropped.flatMap fun r => lineTokens r.2) = [] := by
      rw [List.flatMap_eq_nil_iff]
      intro r hr
      have hchars : r.1 = [] := by
        refine List.eq_of_mem_replicate (n := n) ?_
        rw [← hdropped]
        exact List.mem_map_of_mem hr
      rcases h r (List.mem_append_right _ hr) with ⟨-, htokens⟩ | hfragment
      · simp [htokens, lineTokens]
      · exact absurd hchars hfragment.ne_nil
    rw [hformat, ← hkept]
    have hinner : ∀ r ∈ kept, Inner r.1 r.2 := fun r hr => h r (List.mem_append_left _ hr)
    obtain ⟨tokens, htokens, hbare⟩ := tokenize_lines hinner (Or.inl ⟨rfl, rfl⟩) file
    refine ⟨tokens, htokens, ?_⟩
    rw [hbare, List.flatMap_append, hempty]
    simp [lineTokens]

end SlotTree

import SlotTree.Token.Stream

/-!
# Where tokens come from

The scanner adds tokens to the stream in two ways.  It marks the layout, and it turns a
lexeme at the start of the text that is left into a token.  Whatever is to be shown of
all tokens of a script, and does not depend on what stands around them, follows from this
(`origin_of_tokenize`): it holds of the layout, and it holds of what `Lexeme.next` gives.
-/

namespace SlotTree

open Text (byteLength)

/-- A token comes from the layout or from a lexeme of the file. -/
structure Token.Origin (file : String) (t : Token) : Prop where
  start_file : t.span.start.file = file
  stop_file : t.span.stop.file = file
  source : t.kind ∈ [TokenKind.newline, .indent, .dedent, .eof] ∨
    ∃ cs chars, Lexeme.next cs = .ok ⟨.token t.kind t.text, chars⟩ ∧
      t.span.stop.offset = t.span.start.offset + byteLength chars

/-- A token that stands for a lexeme stands for at least one byte. -/
theorem Token.Origin.start_lt_stop {file : String} {t : Token} (h : t.Origin file)
    (hkind : t.kind ∉ [TokenKind.newline, .indent, .dedent, .eof]) :
    t.span.start.offset < t.span.stop.offset := by
  obtain ⟨cs, chars, hnext, hstop⟩ := h.source.resolve_left hkind
  obtain ⟨c, chars, rfl⟩ := List.exists_cons_of_ne_nil (Lexeme.chars_ne_nil_of_next hnext)
  rw [hstop, Text.byteLength_cons]
  have hsize := c.utf8Size_pos
  omega

namespace Scan

/-- All tokens so far come from the layout or from lexemes. -/
def Origins (file : String) (s : Scan) : Prop := ∀ t ∈ s.emitted, t.Origin file

namespace Origins

variable {file : String} {s s' : Scan}

/-- Marking the layout. -/
theorem emit (h : s.Origins file) {kind : TokenKind}
    (hkind : kind ∈ [TokenKind.newline, .indent, .dedent, .eof]) (text : String)
    (chars : List Char) : (s.emit file kind text chars).Origins file := by
  intro t ht
  rcases List.mem_cons.mp ht with rfl | ht
  · exact ⟨rfl, rfl, Or.inl hkind⟩
  · exact h t ht

theorem closeBlocks (h : s.Origins file) (target : Nat) (indents : List Nat) :
    (closeBlocks file target s indents).Origins file := by
  induction indents generalizing s with
  | nil => exact h
  | cons top below ih =>
    unfold Scan.closeBlocks
    split
    · exact ih (h.emit (by decide) "" [])
    · exact h

theorem indentTo (h : s.Origins file) {target : Nat} (hindent : s.indentTo file target = .ok s') :
    s'.Origins file := by
  unfold Scan.indentTo at hindent
  split at hindent
  · split at hindent
    · cases hindent
      exact h.emit (by decide) "" []
    · cases hindent
  · simp only at hindent
    split at hindent
    · cases hindent
    · cases hindent
      exact h.closeBlocks target s.indents

theorem beginLine (h : s.Origins file) (hline : s.beginLine file = .ok s') :
    s'.Origins file := by
  unfold Scan.beginLine at hline
  simp only at hline
  split at hline
  · cases hline
    exact h
  · split at hline
    · cases hline
      exact h
    · exact indentTo (s := { s.advance _ with lineStart := false }) h hline

theorem endLine (h : s.Origins file) (chars : List Char) :
    (s.endLine file chars).Origins file := by
  unfold Scan.endLine
  split
  · simp only
    split
    · exact h.emit (by decide) "\n" chars
    · exact h
  · exact h

/-- Reading a lexeme. -/
theorem readLexeme (h : s.Origins file) (hread : s.readLexeme file = .ok s') :
    s'.Origins file := by
  unfold Scan.readLexeme at hread
  split at hread
  · cases hread
  · next l hl =>
    cases hread
    obtain ⟨piece, chars⟩ := l
    cases piece with
    | trivia => exact h
    | lineEnd => exact h.endLine chars
    | token kind text =>
      intro t ht
      rcases List.mem_cons.mp ht with rfl | ht
      · exact ⟨rfl, rfl, Or.inr ⟨s.rest, chars, hl, rfl⟩⟩
      · exact h t ht

theorem step (h : s.Origins file) (hstep : s.step file = .ok s') : s'.Origins file := by
  unfold Scan.step at hstep
  split at hstep
  · cases hstep
  · next mid hmid =>
    have hmid' : mid.Origins file := by
      split at hmid
      · exact h.beginLine hmid
      · cases hmid
        exact h
    split at hstep
    · cases hstep
      exact hmid'
    · exact hmid'.readLexeme hstep

theorem run (h : s.Origins file) (hrun : s.run file = .ok s') : s'.Origins file := by
  fun_induction Scan.run file s with
  | case1 s hnil =>
    cases hrun
    exact h
  | case2 s hne fault hfault => cases hrun
  | case3 s hne next hnext ih => exact ih (h.step hnext) hrun

theorem finish (h : s.Origins file) : (s.finish file).Origins file := by
  have hdedents : ∀ (indents : List Nat) (s : Scan), s.Origins file →
      (indents.foldl (fun s _ => s.emit file .dedent "" []) s).Origins file := by
    intro indents
    induction indents with
    | nil => exact fun s hs => hs
    | cons _ _ ih => exact fun s hs => ih _ (hs.emit (by decide) "" [])
  unfold Scan.finish
  refine emit (hdedents _ _ ?_) (by decide) "EOF" []
  split
  · exact h.emit (by decide) "" []
  · exact h

end Origins
end Scan

/-- **Every token of a script marks the layout or stands for a lexeme.** -/
theorem origin_of_tokenize {source file : String} {tokens : List Token}
    (h : tokenize source file = .ok tokens) : ∀ t ∈ tokens, t.Origin file := by
  unfold tokenize at h
  cases hrun : Scan.run file (.ofText source.toList) with
  | error fault =>
    rw [hrun] at h
    cases h
  | ok s =>
    rw [hrun] at h
    cases h
    intro t ht
    have horigins : s.Origins file := Scan.Origins.run (by simp [Scan.Origins, Scan.ofText]) hrun
    exact horigins.finish t (List.mem_reverse.mp ht)

end SlotTree

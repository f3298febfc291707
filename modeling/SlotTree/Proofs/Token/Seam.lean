import SlotTree.Proofs.Token.Layout
import SlotTree.Proofs.Token.LineLocal

/-!
# Scripts one after the other

The scanner goes through a script in the same way wherever the script stands.  What may stand
around it is a `Frame`: tokens and bytes in front of it, of which the last token closes a line, and
a text behind it that begins with a line feed.  `Scan.within` puts the state of the scanner into a
frame, and the run of a script that has tokens is, put into a frame, a part of the run of the whole
(`Scan.run_within`).  Positions are moved by the bytes in front.

A script is put into two frames here.  In front of a line feed it is read as before
(`next_append_feed`).  Behind the lines of another script it is read as before too, because the
scanner looks back only to see whether a line is open and whether it ended in a colon.  The seam
itself is one line feed, which leaves the scanner as at the beginning of a text if no bracket and no
block is open there (`Scan.run_feed`).
-/

namespace SlotTree

open Text (byteLength)

/-! ## Moving positions -/

/-- The span with both ends moved. -/
def Span.relocate (g : Position → Position) (s : Span) : Span := ⟨g s.start, g s.stop⟩

/-- The token at another place. -/
def Token.relocate (g : Position → Position) (t : Token) : Token :=
  { t with span := t.span.relocate g }

@[simp] theorem Token.kind_relocate (g : Position → Position) (t : Token) :
    (t.relocate g).kind = t.kind := rfl

@[simp] theorem Token.text_relocate (g : Position → Position) (t : Token) :
    (t.relocate g).text = t.text := rfl

@[simp] theorem Token.span_relocate (g : Position → Position) (t : Token) :
    (t.relocate g).span = t.span.relocate g := rfl

/-- The position so many bytes further on. -/
def Position.shift (bytes : Nat) (p : Position) : Position := ⟨p.offset + bytes, p.file⟩

/-! ## Frames -/

/-- What may stand around a script. -/
structure Frame where
  /-- The file of the script by itself. -/
  file : String
  /-- The file of the whole. -/
  outer : String
  /-- The bytes in front of the script. -/
  bytes : Nat
  /-- Where the positions of the script come to lie. -/
  place : Position → Position
  place_eq : ∀ offset, place ⟨offset, file⟩ = ⟨offset + bytes, outer⟩
  /-- The tokens in front of the script, the latest first. -/
  before : List Token
  closed : ∀ t ∈ before.head?, t.kind = .newline
  /-- The text behind the script. -/
  after : List Char
  feed : ∀ c ∈ after.head?, c = '\n'

namespace Frame

/-- A line feed and more behind the script. -/
def infront (file : String) (rest : List Char) : Frame where
  file := file
  outer := file
  bytes := 0
  place := id
  place_eq _ := rfl
  before := []
  closed := by simp
  after := '\n' :: rest
  feed := by simp

/-- Closed lines in front of the script. -/
def behind (file : String) (bytes : Nat) (lines : List Token)
    (closed : ∀ t ∈ lines.head?, t.kind = .newline) : Frame where
  file := file
  outer := file
  bytes := bytes
  place := .shift bytes
  place_eq _ := rfl
  before := lines
  closed := closed
  after := []
  feed := by simp

/-- The same script under another name. -/
def renamed (file outer : String) : Frame where
  file := file
  outer := outer
  bytes := 0
  place p := ⟨p.offset, outer⟩
  place_eq _ := rfl
  before := []
  closed := by simp
  after := []
  feed := by simp

theorem next_append_after (f : Frame) {cs : List Char} {l : Lexeme} (h : Lexeme.next cs = .ok l) :
    Lexeme.next (cs ++ f.after) = .ok l := by
  cases hafter : f.after with
  | nil => rwa [List.append_nil]
  | cons c rest =>
    obtain rfl : c = '\n' := f.feed c (by simp [hafter])
    exact Lexeme.next_append_feed h rest

/-- Blanks do not go past the end of the script. -/
theorem takeWhile_append_after (f : Frame) (cs : List Char) :
    (cs ++ f.after).takeWhile Lexeme.isSpace = cs.takeWhile Lexeme.isSpace := by
  cases hafter : f.after with
  | nil => rw [List.append_nil]
  | cons c rest =>
    obtain rfl : c = '\n' := f.feed c (by simp [hafter])
    exact Lexeme.stopsAtLineEnd_takeWhile rfl rfl rfl cs rest

end Frame

/-! ## The scanner in a frame -/

namespace Scan

/-- The scanner in the script, seen from the whole. -/
def within (f : Frame) (s : Scan) : Scan :=
  { s with
    rest := s.rest ++ f.after
    offset := s.offset + f.bytes
    emitted := s.emitted.map (Token.relocate f.place) ++ f.before }

variable (f : Frame) {s s' : Scan}

theorem spanOf_within (s : Scan) (chars : List Char) :
    (s.within f).spanOf f.outer chars = (s.spanOf f.file chars).relocate f.place := by
  rw [spanOf, spanOf, Span.relocate, f.place_eq, f.place_eq]
  simp only [within, Nat.add_right_comm]

theorem emit_within (s : Scan) (kind : TokenKind) (text : String) (chars : List Char) :
    (s.within f).emit f.outer kind text chars = (s.emit f.file kind text chars).within f := by
  rw [emit, spanOf_within]
  rfl

theorem advance_within {chars : List Char} (h : chars.length ≤ s.rest.length) :
    (s.within f).advance chars = (s.advance chars).within f := by
  simp only [advance, within, List.drop_append_of_le_length h, Nat.add_right_comm]

/-- A line is open in the script or nowhere. -/
theorem lineOpen_within (s : Scan) : (s.within f).lineOpen = s.lineOpen := by
  unfold lineOpen within
  cases s.emitted with
  | cons t emitted => rfl
  | nil =>
    cases hbefore : f.before with
    | nil => rfl
    | cons t before => simp [f.closed t (by simp [hbefore])]

theorem afterColon_within (h : s.afterColon = true) : (s.within f).afterColon = true := by
  unfold afterColon at h ⊢
  split at h
  · next t u emitted hemitted => simpa [within, hemitted] using h
  · cases h

theorem closeBlocks_within (target : Nat) (s : Scan) (indents : List Nat) :
    closeBlocks f.outer target (s.within f) indents =
      (closeBlocks f.file target s indents).within f := by
  induction indents generalizing s with
  | nil => rfl
  | cons top below ih =>
    unfold closeBlocks
    split
    · rw [emit_within, ih]
    · rfl

theorem indentTo_within {target : Nat} (h : s.indentTo f.file target = .ok s') :
    (s.within f).indentTo f.outer target = .ok (s'.within f) := by
  have hindents : (s.within f).indents = s.indents := rfl
  unfold indentTo at h ⊢
  rw [hindents]
  split at h
  · next hright =>
    rw [if_pos hright]
    split at h
    · next hcolon =>
      cases h
      rw [if_pos (afterColon_within f hcolon), emit_within]
      rfl
    · cases h
  · next hleft =>
    rw [if_neg hleft]
    simp only [closeBlocks_within] at h ⊢
    split at h
    · cases h
    · next hcolumn =>
      cases h
      exact if_neg hcolumn

/-- A line without anything on it is one in the whole too: what follows is a line end. -/
theorem beginLine_within (h : s.beginLine f.file = .ok s') :
    (s.within f).beginLine f.outer = .ok (s'.within f) := by
  have hblanks : (s.within f).rest.takeWhile Lexeme.isSpace = s.rest.takeWhile Lexeme.isSpace :=
    f.takeWhile_append_after s.rest
  have hadvance := advance_within f (List.takeWhile_prefix Lexeme.isSpace (l := s.rest)).length_le
  unfold beginLine at h ⊢
  simp only [hblanks, hadvance] at h ⊢
  generalize s.advance (s.rest.takeWhile Lexeme.isSpace) = mid at h ⊢
  cases hrest : mid.rest with
  | nil =>
    simp only [hrest] at h
    cases h
    cases hafter : f.after with
    | nil => simp [within, hrest, hafter]
    | cons c rest =>
      obtain rfl : c = '\n' := f.feed c (by simp [hafter])
      simp [within, hrest, hafter, Lexeme.isLineEndChar]
  | cons c cs =>
    simp only [hrest] at h
    simp only [within, hrest, List.cons_append]
    split at h
    · next hnone =>
      cases h
      rw [if_pos hnone]
      simp
    · next hsome =>
      rw [if_neg hsome]
      have hindent := indentTo_within f h
      simpa [within, hrest] using hindent

theorem endLine_within (s : Scan) (chars : List Char) :
    (s.within f).endLine f.outer chars = (s.endLine f.file chars).within f := by
  have hdepth : (s.within f).depth = s.depth := rfl
  unfold endLine
  rw [hdepth]
  split
  · simp only [lineOpen_within]
    split
    · rw [emit_within]
      rfl
    · rfl
  · rfl

theorem accept_within {l : Lexeme} (hl : l.chars.length ≤ s.rest.length) :
    (s.within f).accept f.outer l = (s.accept f.file l).within f := by
  unfold accept
  split
  · rw [advance_within f hl]
  · rw [endLine_within, advance_within f (by rwa [rest_endLine])]
  · next kind text _ =>
    rw [emit_within]
    exact advance_within f (s := { s.emit f.file kind text l.chars with
      depth := kind.depthAfter s.depth }) hl

theorem readLexeme_within (h : s.readLexeme f.file = .ok s') :
    (s.within f).readLexeme f.outer = .ok (s'.within f) := by
  unfold readLexeme at h ⊢
  split at h
  · cases h
  · next l hl =>
    cases h
    have hnext : Lexeme.next (s.within f).rest = .ok l := f.next_append_after hl
    rw [hnext]
    simp only
    rw [accept_within f (Lexeme.prefix_of_next hl).length_le]

theorem step_of_lineStart (file : String) (h : s.lineStart = false) :
    s.step file = if s.rest.isEmpty then .ok s else s.readLexeme file := by
  simp [step, h]

/-- **A step of the script is one of the whole.** A step that finds nothing left but blanks is only
the first part of a step in the whole, which goes on with what follows. -/
theorem run_step_within (hne : s.rest ≠ []) (h : s.step f.file = .ok s') :
    (s.within f).run f.outer = (s'.within f).run f.outer := by
  have hne' : (s.within f).rest ≠ [] := by simp [within, hne]
  unfold step at h
  split at h
  · cases h
  · next mid hmid =>
    have hbegin : (if (s.within f).lineStart then (s.within f).beginLine f.outer
        else .ok (s.within f)) = .ok (mid.within f) ∧ mid.lineStart = false := by
      have hstart : (s.within f).lineStart = s.lineStart := rfl
      rw [hstart]
      split at hmid
      · next hline =>
        rw [if_pos hline]
        exact ⟨beginLine_within f hmid, lineStart_of_beginLine hmid⟩
      · next hline =>
        cases hmid
        rw [if_neg hline]
        exact ⟨rfl, by simpa using hline⟩
    have hmidStep := step_of_lineStart (s := mid.within f) f.outer hbegin.2
    have hstep : (s.within f).step f.outer = (mid.within f).step f.outer := by
      rw [hmidStep, step, hbegin.1]
    have hmidRun : (s.within f).run f.outer = (mid.within f).run f.outer := by
      by_cases hempty : (mid.within f).rest = []
      · refine run_of_step hne' (hstep.trans ?_)
        rw [hmidStep, hempty]
        rfl
      · exact run_of_step_eq hne' hempty hstep
    split at h
    · cases h
      exact hmidRun
    · next hfull =>
      have hread := readLexeme_within f h
      have hmidne : (mid.within f).rest ≠ [] := by
        have hmidrest : mid.rest ≠ [] := by simpa using hfull
        simp [within, hmidrest]
      refine hmidRun.trans (run_of_step hmidne ?_)
      rw [hmidStep, if_neg (by simpa using hmidne), hread]

/-- **The run of a script is the first part of a run of the whole.** -/
theorem run_within (h : s.run f.file = .ok s') :
    (s.within f).run f.outer = (s'.within f).run f.outer := by
  generalize hfile : f.file = file at h
  fun_induction Scan.run file s with
  | case1 s hnil =>
    cases h
    rfl
  | case2 s hne fault hfault => cases h
  | case3 s hne next hnext ih =>
    subst hfile
    exact (run_step_within f hne hnext).trans (ih h)

/-- Nothing is left after a run. -/
theorem rest_of_run {file : String} (h : s.run file = .ok s') : s'.rest = [] := by
  fun_induction Scan.run file s with
  | case1 s hnil =>
    cases h
    exact hnil
  | case2 s hne fault hfault => cases h
  | case3 s hne next hnext ih => exact ih h

/-- With nothing behind the script its run is the last part of the run of the whole. -/
theorem run_within_of_after (hafter : f.after = []) (h : s.run f.file = .ok s') :
    (s.within f).run f.outer = .ok (s'.within f) := by
  rw [run_within f h]
  refine run_nil ?_
  simp [within, rest_of_run h, hafter]

theorem endMark_within (s : Scan) (kind : TokenKind) (text : String) :
    (s.within f).endMark f.outer kind text = (s.endMark f.file kind text).relocate f.place := by
  rw [endMark, spanOf_within]
  rfl

/-- The end of the script adds the same tokens in the whole. -/
theorem closing_within (s : Scan) :
    (s.within f).closing f.outer = (s.closing f.file).map (Token.relocate f.place) := by
  have hindents : (s.within f).indents = s.indents := rfl
  rw [closing, closing, hindents, lineOpen_within, endMark_within, endMark_within, endMark_within]
  cases s.lineOpen <;> simp

/-! ## The seam -/

/-- **A line feed outside of brackets ends the line**, whatever stands in front of it on the line.
The next line begins. -/
theorem run_feed (file : String) {rest : List Char} (hrest : s.rest = '\n' :: rest)
    (hdepth : s.depth = 0) :
    s.run file = (({ if s.lineOpen then s.emit file .newline "\n" ['\n'] else s with
      lineStart := true } : Scan).advance ['\n']).run file := by
  have hnext : ∀ s' : Scan, s'.rest = '\n' :: rest → s'.lineStart = false → s'.depth = 0 →
      s'.run file = (({ if s'.lineOpen then s'.emit file .newline "\n" ['\n'] else s' with
        lineStart := true } : Scan).advance ['\n']).run file := by
    intro s' hrest' hstart hdepth'
    have hlexeme : Lexeme.next s'.rest = .ok ⟨.lineEnd, ['\n']⟩ := by
      rw [hrest']
      exact Lexeme.next_lineFeed rest
    rw [run_of_next hstart hlexeme, accept, endLine_of_depth hdepth']
  cases hstart : s.lineStart with
  | false => exact hnext s hrest hstart hdepth
  | true =>
    have hbegin : s.beginLine file = .ok { s with lineStart := false } := by
      obtain ⟨text, offset, emitted, indents, depth, lineStart⟩ := s
      simp only at hrest
      subst hrest
      have hspace : Lexeme.isSpace '\n' = false := rfl
      have hend : Lexeme.isLineEndChar '\n' = true := rfl
      simp [beginLine, advance, hspace, hend]
    rw [run_of_beginLine hstart (by simp [hrest]) hbegin,
      hnext { s with lineStart := false } hrest rfl hdepth]
    have hopen : ({ s with lineStart := false } : Scan).lineOpen = s.lineOpen := rfl
    rw [hopen]
    cases s.lineOpen <;> rfl

/-- The tokens of the lines of a script in front of a line feed, the latest first. -/
def closedLines (file : String) (s : Scan) : List Token :=
  if s.lineOpen then ⟨.newline, "\n", s.spanOf file ['\n']⟩ :: s.emitted else s.emitted

theorem kind_head?_closedLines (file : String) (s : Scan) :
    ∀ t ∈ (s.closedLines file).head?, t.kind = .newline := by
  unfold closedLines
  cases hopen : s.lineOpen with
  | true => simp
  | false => exact kind_of_not_lineOpen hopen

/-- The scanner stands behind the text that it has gone through. -/
theorem offset_of_run {file : String} {text : List Char} (h : run file (.ofText text) = .ok s) :
    s.offset = byteLength text := by
  obtain ⟨⟨done, hoffset, laid⟩, hrest⟩ := (Covers.ofText text).run h
  have hdone : text = done := by simpa [hrest] using laid.text_eq
  rw [hoffset, ← hdone]

/-- **Behind a line feed a script is scanned as by itself**, if the script in front of it leaves no
bracket and no block open. -/
theorem run_seam {file : String} {a b : List Char} {sa sb : Scan}
    (ha : run file (.ofText a) = .ok sa) (hdepth : sa.depth = 0) (hindents : sa.indents = [])
    (hb : run file (.ofText b) = .ok sb) :
    run file (.ofText (a ++ '\n' :: b)) =
      .ok (sb.within (.behind file (byteLength a + 1) (sa.closedLines file)
        (kind_head?_closedLines file sa))) := by
  have hmoved : sa.emitted.map (Token.relocate id) = sa.emitted := List.map_id sa.emitted
  have hseam : sa.within (.infront file b) = { sa with rest := '\n' :: b } := by
    simp [within, Frame.infront, rest_of_run ha, hmoved]
  have hfirst := run_within (.infront file b) ha
  rw [hseam] at hfirst
  have hfeed := run_feed (s := { sa with rest := '\n' :: b }) file rfl hdepth
  refine (hfirst.trans hfeed).trans ?_
  have hsecond := run_within_of_after (.behind file (byteLength a + 1) (sa.closedLines file)
    (kind_head?_closedLines file sa)) rfl hb
  have hopen : ({ sa with rest := '\n' :: b } : Scan).lineOpen = sa.lineOpen := rfl
  rw [hopen]
  refine Eq.trans (congrArg (run file) ?_) hsecond
  have hbytes : byteLength ['\n'] = 1 := rfl
  cases hline : sa.lineOpen with
  | true => simp [within, Frame.behind, ofText, closedLines, hline, advance, emit, hdepth, hindents,
      offset_of_run ha, hbytes, spanOf]
  | false => simp [within, Frame.behind, ofText, closedLines, hline, advance, hdepth, hindents,
      offset_of_run ha, hbytes]

/-- The tokens of a script belong to its file. -/
theorem file_of_mem_emitted {file : String} {text : List Char}
    (h : run file (.ofText text) = .ok s) {t : Token} (ht : t ∈ s.emitted) :
    t.span.start.file = file := by
  -- the script under its own name is the script, so its tokens are those put into the file
  have hsame := run_within_of_after (.renamed file file) rfl h
  have hstart : (ofText text).within (.renamed file file) = ofText text := by
    simp [within, Frame.renamed, ofText]
  rw [hstart] at hsame
  have hemitted : s.emitted = s.emitted.map (Token.relocate fun p => ⟨p.offset, file⟩) := by
    have hs := Except.ok.inj (h.symm.trans hsame)
    simpa [within, Frame.renamed] using congrArg Scan.emitted hs
  rw [hemitted] at ht
  obtain ⟨u, -, rfl⟩ := List.mem_map.mp ht
  rfl

end Scan

/-- Where no block is closed at the end of the script, none is open there. -/
theorem Scan.closing_of_flat {file : String} {s : Scan}
    (h : ∀ t ∈ s.closing file, t.kind ≠ .dedent) :
    s.indents = [] ∧ s.closing file =
      (if s.lineOpen then [s.endMark file .newline ""] else []) ++ [s.endMark file .eof "EOF"] := by
  have hindents : s.indents = [] := by
    by_contra hne
    refine h (s.endMark file .dedent "") ?_ rfl
    simp [closing, hne]
  refine ⟨hindents, ?_⟩
  rw [closing, hindents]
  rfl

/-- The lines of a script without its end, and what becomes of them in front of a line feed: the
end of the last line is a token of its own there. -/
def SameLines (tokens lines : List Token) : Prop :=
  (∃ last, tokens = [last] ∧ last.kind = .eof ∧ lines = []) ∨
    ∃ line newline newline' last, tokens = line ++ [newline, last] ∧ lines = line ++ [newline'] ∧
      newline.kind = .newline ∧ newline'.kind = .newline ∧ last.kind = .eof

theorem Scan.sameLines_closedLines {file : String} {s : Scan}
    (h : ∀ t ∈ s.closing file, t.kind ≠ .dedent) :
    SameLines (s.emitted.reverse ++ s.closing file) (s.closedLines file).reverse := by
  rw [(closing_of_flat h).2, closedLines]
  cases hopen : s.lineOpen with
  | true => exact Or.inr ⟨s.emitted.reverse, s.endMark file .newline "",
      ⟨.newline, "\n", s.spanOf file ['\n']⟩, s.endMark file .eof "EOF", by simp, by simp,
      rfl, rfl, rfl⟩
  | false =>
    cases hemitted : s.emitted with
    | nil => exact Or.inl ⟨s.endMark file .eof "EOF", rfl, rfl, rfl⟩
    | cons t emitted =>
      have ht : t.kind = .newline := kind_of_not_lineOpen hopen t (by simp [hemitted])
      exact Or.inr ⟨emitted.reverse, t, t, s.endMark file .eof "EOF", by simp, by simp, ht, ht, rfl⟩

/-- **The tokens of two scripts one after the other** are the lines of the first and the tokens of
the second, if the first leaves no bracket and no block open. -/
theorem tokenize_seam {a b file : String} {ta tb : List Token} (ha : tokenize a file = .ok ta)
    (hb : tokenize b file = .ok tb) (hdepth : depthThrough (ta.map Token.bare) 0 = 0)
    (hflat : ∀ t ∈ ta, t.kind ≠ .dedent) :
    ∃ lines, SameLines ta lines ∧ tokenize (a ++ "\n" ++ b) file =
      .ok (lines ++ tb.map (Token.relocate (.shift (byteLength a.toList + 1)))) := by
  obtain ⟨sa, hrun, rfl⟩ := tokenize_eq_ok_iff.mp ha
  obtain ⟨sb, hrun', rfl⟩ := tokenize_eq_ok_iff.mp hb
  rw [Scan.emitted_finish] at hdepth hflat ⊢
  have hclosing : ∀ t ∈ sa.closing file, t.kind ≠ .dedent := fun t ht =>
    hflat t (List.mem_append_right _ ht)
  obtain ⟨hindents, hends⟩ := Scan.closing_of_flat hclosing
  have hzero : sa.depth = 0 := by
    have hlayout : depthThrough ((sa.closing file).map Token.bare) (depthBehind sa.emitted) =
        depthBehind sa.emitted := by
      rw [hends]
      cases sa.lineOpen <;> rfl
    rw [List.map_append, depthThrough_append] at hdepth
    rw [((Scan.LaidOut.ofText a.toList).run hrun).emits.depth_eq]
    exact hlayout.symm.trans hdepth
  refine ⟨(sa.closedLines file).reverse, Scan.sameLines_closedLines hclosing, ?_⟩
  have htext : (a ++ "\n" ++ b).toList = a.toList ++ '\n' :: b.toList := by simp
  have hseam := Scan.run_seam hrun hzero hindents hrun'
  rw [← htext] at hseam
  refine tokenize_eq_ok_iff.mpr ⟨_, hseam, ?_⟩
  have hend := Scan.closing_within (.behind file (byteLength a.toList + 1) (sa.closedLines file)
    (Scan.kind_head?_closedLines file sa)) sb
  rw [Scan.emitted_finish, Scan.emitted_finish]
  simp only [Frame.behind] at hend ⊢
  rw [hend]
  simp [Scan.within]

end SlotTree

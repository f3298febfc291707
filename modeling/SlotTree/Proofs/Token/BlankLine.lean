import SlotTree.Proofs.Token.LineLocal
import SlotTree.Proofs.Token.Lockstep

/-!
# Lines with nothing on them

A line of blanks, with or without a comment, can be put between two lines of a script and changes
none of its tokens but their places (`tokenize_blankLine`).

The two scanners go through three stages.  In front of the new line they read the same text, with
different texts behind it.  That makes no difference, because where a line begins the text in front
ends with a line feed, and no lexeme in front of a line feed depends on what follows it
(`Scan.Abreast.step_sameLine`, and for a run `Scan.Reaches.reframe`).  Then one of them reads the
new line.  It measures no indentation there and finds no line to close, so it comes out as it went
in, some bytes further on (`Scan.run_blankLine`).  From there on both read the same text
(`Scan.Abreast.run`).
-/

namespace SlotTree

open Text (byteLength)

namespace Lexeme

theorem next_lineEnd {ending : List Char} (h : IsLineEnd ending) (rest : List Char) :
    next (ending ++ rest) = .ok ⟨.lineEnd, ending⟩ := by
  rcases h with rfl | rfl
  · exact next_lineFeed rest
  · rfl

/-- A comment goes up to the line end. -/
theorem next_comment {text rest : List Char} (h : ∀ c ∈ text, isLineEndChar c = false)
    (hrest : ∀ c ∈ rest.head?, isLineEndChar c = true) :
    next ('#' :: text ++ rest) = .ok ⟨.trivia, '#' :: text⟩ := by
  have hstop : rest.takeWhile (fun c => !isLineEndChar c) = [] := by
    cases rest with
    | nil => rfl
    | cons c rest => simp [hrest c rfl]
  have hline : (text ++ rest).takeWhile (fun c => !isLineEndChar c) = text := by
    rw [List.takeWhile_append_of_pos (by simpa using h), hstop, List.append_nil]
  have hspace : isSpace '#' = false := rfl
  simp [next, rules, blankRule, continuationRule, commentRule, found, hspace, leadingContinuation,
    leadingComment, hline]

end Lexeme

/-- A line of blanks, with or without a comment behind them. -/
inductive BlankLine : List Char → Prop where
  | blanks {blanks ending : List Char} (blank : ∀ c ∈ blanks, Lexeme.isSpace c = true)
      (ends : Lexeme.IsLineEnd ending) : BlankLine (blanks ++ ending)
  | comment {blanks text ending : List Char} (blank : ∀ c ∈ blanks, Lexeme.isSpace c = true)
      (inside : ∀ c ∈ text, Lexeme.isLineEndChar c = false) (ends : Lexeme.IsLineEnd ending) :
      BlankLine (blanks ++ ('#' :: text ++ ending))

namespace Scan

variable {file : String} {s s' t : Scan}

/-! ## Coming to a place -/

/-- The scanner comes from one state to another. -/
inductive Reaches (file : String) : Scan → Scan → Prop where
  | refl (s : Scan) : Reaches file s s
  | step {s s' t : Scan} (more : s.rest ≠ []) (next : s.step file = .ok s')
      (further : Reaches file s' t) : Reaches file s t

/-- Only a line end begins a line. -/
theorem lineStart_accept {l : Lexeme} (hstart : s.lineStart = false)
    (h : (s.accept file l).lineStart = true) : l.piece = .lineEnd := by
  obtain ⟨piece, chars⟩ := l
  cases piece with
  | lineEnd => rfl
  | trivia => exact absurd (hstart.symm.trans h) Bool.false_ne_true
  | token kind text => exact absurd (hstart.symm.trans h) Bool.false_ne_true

/-- A step takes something off the text, up to a line feed if a line begins behind it. -/
theorem taken_of_step (h : s.step file = .ok s') :
    ∃ taken, s.rest = taken ++ s'.rest ∧
      (s'.lineStart = true → ∃ line, taken = line ++ ['\n']) := by
  obtain ⟨mid, hmid, hstep⟩ := exists_of_step h
  obtain ⟨⟨blanks, hblanks⟩, hstart⟩ := of_opened hmid
  rcases hstep with ⟨-, rfl⟩ | ⟨l, hl, rfl⟩
  · exact ⟨blanks, hblanks.symm, fun hline => absurd (hstart.symm.trans hline) Bool.false_ne_true⟩
  · obtain ⟨rest, hrest⟩ := Lexeme.prefix_of_next hl
    refine ⟨blanks ++ l.chars, ?_, fun hline => ?_⟩
    · rw [rest_accept, ← hrest, List.drop_left, List.append_assoc, hrest, hblanks]
    · obtain ⟨piece, chars⟩ := l
      obtain rfl : piece = .lineEnd := lineStart_accept hstart hline
      rcases Lexeme.isLineEnd_of_next hl with rfl | rfl
      · exact ⟨blanks, rfl⟩
      · exact ⟨blanks ++ ['\r'], by simp⟩

namespace Reaches

theorem run_eq (h : Reaches file s t) : s.run file = t.run file := by
  induction h with
  | refl => rfl
  | step more next _ ih => rw [run_of_step more next, ih]

theorem laidOut (h : Reaches file s t) (hs : s.LaidOut) : t.LaidOut := by
  induction h with
  | refl => exact hs
  | step _ next _ ih => exact ih (hs.step next)

theorem covers (h : Reaches file s t) {text : List Char} (hs : s.Covers text) : t.Covers text := by
  induction h with
  | refl => exact hs
  | step _ next _ ih => exact ih (hs.step next)

theorem suffix (h : Reaches file s t) : t.rest <:+ s.rest := by
  induction h with
  | refl => exact List.suffix_rfl
  | step _ next _ ih =>
    obtain ⟨taken, htaken, -⟩ := taken_of_step next
    exact ih.trans ⟨taken, htaken.symm⟩

/-- In front of a line that begins behind other text stands a line feed. -/
theorem feed_before (h : Reaches file s' t) (hstart : t.lineStart = true)
    (hstep : s.step file = .ok s') : ∃ line, s.rest = line ++ '\n' :: t.rest := by
  induction h generalizing s with
  | refl t =>
    obtain ⟨taken, htaken, hline⟩ := taken_of_step hstep
    obtain ⟨line, rfl⟩ := hline hstart
    exact ⟨line, by simpa using htaken⟩
  | step _ next _ ih =>
    obtain ⟨taken, htaken, -⟩ := taken_of_step hstep
    obtain ⟨line, hline⟩ := ih hstart next
    exact ⟨taken ++ line, by rw [htaken, hline, List.append_assoc]⟩

end Reaches

/-! ## Another text behind the line -/

/-- The texts are the same up to a line feed, and each goes on in its own way behind it. -/
def SameLine (b x cs ds : List Char) : Prop :=
  ∃ line, cs = line ++ '\n' :: b ∧ ds = line ++ '\n' :: x

theorem sameLayout_sameLine (b x : List Char) : SameLayout (SameLine b x) where
  blanks := by
    rintro _ _ ⟨line, rfl, rfl⟩
    rw [Lexeme.stopsAtLineEnd_takeWhile rfl rfl rfl, Lexeme.stopsAtLineEnd_takeWhile rfl rfl rfl]
  behind := by
    have hdrop : ∀ line rest : List Char, (line ++ '\n' :: rest).dropWhile Lexeme.isSpace =
        line.dropWhile Lexeme.isSpace ++ '\n' :: rest := by
      intro line rest
      have hfeed : ('\n' :: rest).dropWhile Lexeme.isSpace = '\n' :: rest := rfl
      rw [List.dropWhile_append, hfeed]
      split
      · next hnil => rw [List.isEmpty_iff.mp hnil, List.nil_append]
      · rfl
    rintro _ _ ⟨line, rfl, rfl⟩
    exact ⟨line.dropWhile Lexeme.isSpace, hdrop line b, hdrop line x⟩
  nothing := by
    rintro _ _ ⟨line, rfl, rfl⟩
    cases line <;> rfl
  ends := by
    rintro _ _ ⟨line, rfl, rfl⟩
    simp

/-- The texts are the same up to a place, where each goes on in its own way. -/
def SameFront (b x cs ds : List Char) : Prop := ∃ front, cs = front ++ b ∧ ds = front ++ x

/-- A step that does not go beyond the line feed is the same whatever stands behind it. -/
theorem Abreast.step_sameLine {b x : List Char} {u : Scan} (h : Abreast (SameLine b x) s u)
    (hstep : s.step file = .ok s') (hleft : b <:+ s'.rest) :
    ∃ u', u.step file = .ok u' ∧ Abreast (SameFront b x) s' u' := by
  rcases h.step_cases file (sameLayout_sameLine b x) with
    ⟨f, g, hs, -, -⟩ | ⟨mid, mid', hmid, habreast, ⟨hnil, -⟩ | ⟨-, hs, hu⟩⟩
  · rw [hstep] at hs
    cases hs
  · obtain ⟨line, hline, -⟩ := habreast.rest
    simp [hnil] at hline
  · rw [hstep, eq_comm, Scan.readLexeme] at hs
    split at hs
    · cases hs
    · next l hl =>
      cases hs
      obtain ⟨line, hcs, hds⟩ := habreast.rest
      have hin : l.chars.length ≤ (line ++ ['\n']).length := by
        have hprefix := (Lexeme.prefix_of_next hl).length_le
        have hsuffix := hleft.length_le
        rw [rest_accept, List.length_drop] at hsuffix
        rw [hcs] at hprefix hsuffix
        simp only [List.length_append, List.length_cons, List.length_nil] at *
        omega
      have hl' : Lexeme.next mid'.rest = .ok l := by
        rw [hcs] at hl
        rw [hds]
        exact Lexeme.next_of_line hl (by simpa using hin) x
      refine ⟨mid'.accept file l, by rw [hu, Scan.readLexeme, hl'], ?_⟩
      refine habreast.accept file l.piece ⟨(line ++ ['\n']).drop l.chars.length, ?_, ?_⟩
      · rw [hcs, List.append_cons, List.drop_append_of_le_length hin]
      · rw [hds, List.append_cons, List.drop_append_of_le_length hin]

/-- **What stands behind a line does not matter up to the line's end.** -/
theorem Reaches.reframe (h : Reaches file s t) (hstart : t.lineStart = true) {u : Scan}
    {x : List Char} (hu : Abreast (SameFront t.rest x) s u) :
    ∃ u', u.run file = u'.run file ∧ u'.rest = x ∧ Abreast (SameFront t.rest x) t u' := by
  induction h generalizing u with
  | refl t =>
    obtain ⟨front, hfront, hrest⟩ := hu.rest
    obtain rfl : front = [] := by simpa using hfront
    exact ⟨u, rfl, hrest, hu⟩
  | @step s s' t _ hstep further ih =>
    -- both texts go on to a line feed, and the step stays in front of what follows it
    obtain ⟨line, hline⟩ := further.feed_before hstart hstep
    obtain ⟨front, hfront, hrest⟩ := hu.rest
    obtain rfl : front = line ++ ['\n'] := by
      have happend : front ++ t.rest = (line ++ ['\n']) ++ t.rest := by rw [← hfront, hline]; simp
      exact List.append_cancel_right happend
    have hsame : Abreast (SameLine t.rest x) s u :=
      ⟨⟨line, hline, by simpa using hrest⟩, hu.emitted, hu.indents, hu.depth, hu.lineStart⟩
    obtain ⟨next, hnext, habreast⟩ := hsame.step_sameLine hstep further.suffix
    obtain ⟨u', hrun, hx, hu'⟩ := ih hstart habreast
    exact ⟨u', (run_of_step (by simp [hrest]) hnext).trans hrun, hx, hu'⟩

/-! ## Over the new line -/

/-- Where nothing stands on a line, its blanks are passed over. -/
theorem run_pastBlanks (hstart : s.lineStart = true) {blanks rest : List Char}
    (hrest : s.rest = blanks ++ rest) (hblank : ∀ c ∈ blanks, Lexeme.isSpace c = true)
    (hne : rest ≠ []) (hnothing : nothingOn rest = true) :
    s.run file =
      ({ s with rest := rest, offset := s.offset + byteLength blanks, lineStart := false } :
        Scan).run file := by
  have hstop : rest.takeWhile Lexeme.isSpace = [] := by
    obtain ⟨c, cs, rfl⟩ := List.exists_cons_of_ne_nil hne
    have hspace : Lexeme.isSpace c = false := by
      rcases Bool.or_eq_true_iff.mp hnothing with hend | hhash
      · rcases Lexeme.eq_of_isLineEndChar hend with rfl | rfl <;> rfl
      · rw [beq_iff_eq.mp hhash]
        rfl
    simp [hspace]
  have hblanks : s.rest.takeWhile Lexeme.isSpace = blanks := by
    rw [hrest, List.takeWhile_append_of_pos hblank, hstop, List.append_nil]
  have hpast : s.pastBlanks =
      { s with rest := rest, offset := s.offset + byteLength blanks, lineStart := false } := by
    rw [pastBlanks, hblanks, advance, hrest, List.drop_left]
  have hopened : s.opened file = .ok s.pastBlanks := by
    rw [opened, if_pos hstart, beginLine_eq, hpast, if_pos hnothing]
  rw [← hpast]
  refine run_of_step_eq (by simp [hrest, hne]) (by simp [hpast, hne]) ?_
  rw [step_eq, hopened]
  rfl

/-- Where no line is open and no bracket, a line end only begins the next line. -/
theorem run_lineEnd (hstart : s.lineStart = false) (hdepth : s.depth = 0)
    (hclosed : s.lineOpen = false) {ending rest : List Char} (hend : Lexeme.IsLineEnd ending)
    (hrest : s.rest = ending ++ rest) :
    s.run file =
      ({ s with rest := rest, offset := s.offset + byteLength ending, lineStart := true } :
        Scan).run file := by
  rw [run_of_next hstart (hrest ▸ Lexeme.next_lineEnd hend rest)]
  simp only [accept]
  rw [endLine_of_depth hdepth, hclosed]
  simp [advance, hrest]

/-- **A line with nothing on it only moves the scanner on.** -/
theorem run_blankLine (hstart : s.lineStart = true) (hdepth : s.depth = 0)
    (hclosed : s.lineOpen = false) {line rest : List Char} (hline : BlankLine line)
    (hrest : s.rest = line ++ rest) :
    s.run file =
      ({ s with rest := rest, offset := s.offset + byteLength line } : Scan).run file := by
  have hnothing : ∀ {ending : List Char}, Lexeme.IsLineEnd ending →
      ending ++ rest ≠ [] ∧ nothingOn (ending ++ rest) = true ∧
        ∀ c ∈ (ending ++ rest).head?, Lexeme.isLineEndChar c = true := by
    rintro ending (rfl | rfl) <;> simp [nothingOn, Lexeme.isLineEndChar]
  cases hline with
  | @blanks blanks ending blank ends =>
    rw [List.append_assoc] at hrest
    obtain ⟨hne, hon, -⟩ := hnothing ends
    rw [run_pastBlanks hstart hrest blank hne hon]
    refine (run_lineEnd rfl ?_ ?_ ends rfl).trans ?_
    · exact hdepth
    · exact hclosed
    · simp only [Text.byteLength_append, Nat.add_assoc, hstart]
  | @comment blanks text ending blank inside ends =>
    rw [List.append_assoc, List.append_assoc] at hrest
    obtain ⟨-, -, hhead⟩ := hnothing ends
    rw [run_pastBlanks hstart hrest blank (by simp) rfl]
    refine (run_of_next rfl (Lexeme.next_comment inside hhead)).trans ?_
    refine (run_lineEnd rfl ?_ ?_ ends List.drop_left).trans ?_
    · exact hdepth
    · exact hclosed
    · simp only [accept, advance, Text.byteLength_append, Nat.add_assoc, hstart]

end Scan

/-! ## The stream -/

/-- The scanner comes to the end of the first text at the beginning of a line, with no bracket
open. -/
def BeginsLine (file : String) (a b : List Char) : Prop :=
  ∃ s, Scan.Reaches file (.ofText (a ++ b)) s ∧ s.offset = byteLength a ∧ s.lineStart = true ∧
    s.depth = 0

/-- The scanner has the second text ahead of it then. -/
theorem rest_of_offset {file : String} {a b : List Char} {s : Scan}
    (h : Scan.Reaches file (.ofText (a ++ b)) s) (hoffset : s.offset = byteLength a) :
    s.rest = b := by
  obtain ⟨done, hdone, laid⟩ := h.covers (Scan.Covers.ofText (a ++ b))
  have htext := laid.text_eq
  have hlength : a.length = done.length := by
    have hfirst := Text.charsBefore?_append a b
    rw [htext, ← hoffset, hdone, Text.charsBefore?_append] at hfirst
    exact (Option.some.inj hfirst).symm
  exact (List.append_inj htext hlength).2.symm

/-- The three stages of a run over the script with the new line. -/
theorem Scan.run_insert_blankLine {file : String} {a line b : List Char} (hline : BlankLine line)
    (hbegins : BeginsLine file a b) :
    Agree (Abreast Eq) (run file (.ofText (a ++ (line ++ b)))) (run file (.ofText (a ++ b))) := by
  obtain ⟨s, hreaches, hoffset, hstart, hdepth⟩ := hbegins
  have hrest := rest_of_offset hreaches hoffset
  have hclosed := ((hreaches.laidOut (.ofText (a ++ b))).fresh hstart).1
  have hfirst : Abreast (SameFront s.rest (line ++ b)) (.ofText (a ++ b))
      (.ofText (a ++ (line ++ b))) :=
    ⟨⟨a, by rw [hrest]; rfl, rfl⟩, rfl, rfl, rfl, rfl⟩
  obtain ⟨t, hrun, htext, ht⟩ := hreaches.reframe hstart hfirst
  have hclosed' : t.lineOpen = false := (lineOpen_congr ht.emitted).symm.trans hclosed
  rw [hrun, run_blankLine (ht.lineStart.symm.trans hstart) (ht.depth.symm.trans hdepth) hclosed'
    hline htext, hreaches.run_eq]
  exact Abreast.run file
    ⟨hrest.symm, ht.emitted.symm, ht.indents.symm, ht.depth.symm, ht.lineStart.symm⟩

/-- **A line with nothing on it can be put in front of any line** that begins outside of all
brackets: the tokens say the same as before, or the scanner fails for the same cause. -/
theorem tokenize_blankLine {a line b file : String} (hline : BlankLine line.toList)
    (hbegins : BeginsLine file a.toList b.toList) :
    Agree (fun ts us => ts.map Token.content = us.map Token.content)
      (tokenize (a ++ line ++ b) file) (tokenize (a ++ b) file) := by
  have hagree := Scan.run_insert_blankLine hline hbegins
  have htext : (a ++ line ++ b).toList = a.toList ++ (line.toList ++ b.toList) := by simp
  rw [tokenize, tokenize, htext, String.toList_append]
  exact hagree.map fun _ _ => Scan.Abreast.finish file

/-- A comment in the middle of a block, indented further than the block and with the other line
end. -/
theorem tokenize_blankLine_in_block :
    BlankLine "\t\t# é'\r\n".toList ∧
      BeginsLine "main.py" "if x:\n y\n".toList " z\n".toList ∧
      Agree (fun ts us => ts.map Token.content = us.map Token.content)
        (tokenize ("if x:\n y\n" ++ "\t\t# é'\r\n" ++ " z\n") "main.py")
        (tokenize ("if x:\n y\n" ++ " z\n") "main.py") := by
  have hline : BlankLine "\t\t# é'\r\n".toList :=
    @BlankLine.comment ['\t', '\t'] [' ', 'é', '\''] ['\r', '\n'] (by simp [Lexeme.isSpace])
      (by simp [Lexeme.isLineEndChar]) (Or.inr rfl)
  have hbegins : BeginsLine "main.py" "if x:\n y\n".toList " z\n".toList :=
    ⟨_, .step (by decide) rfl (.step (by decide) rfl (.step (by decide) rfl
      (.step (by decide) rfl (.step (by decide) rfl (.step (by decide) rfl
        (.step (by decide) rfl (.refl _))))))), by decide +kernel, rfl, rfl⟩
  exact ⟨hline, hbegins, tokenize_blankLine hline hbegins⟩

end SlotTree

import SlotTree.Proofs.Token.Extent
import SlotTree.Token.Stream

/-!
# What the tokens cover

The spans of the tokens of a script lie in it one after the other, and what lies between them
is trivia: no character is lost and none is counted twice (`tokenize_lossless`).

The scanner keeps the offset, the rest of the text and the tokens apart and changes them at
different places, so that they agree has to be carried through every step.  `Tiled` says how
they belong together: the text in front of the offset is laid with pieces that no token stands
for and with the characters of one token after the other, in the order in which the tokens
were emitted.  Layout tokens stand for no characters, except for a line end.  Every step lays
some pieces (`Scan.Covers.step`), so a run and the end of the script do (`Scan.Covers.run`,
`Scan.Covers.tiled_finish`).

What is said of the finished stream is read off the tiles afterwards: where each token stands
(`Tiled.standsFor_of_mem`), what lies in front of it (`Tiled.gap_before`) and that the tokens
do not overlap (`Tiled.ordered`).
-/

namespace SlotTree

open Text (byteLength charsBefore?)

/-! ## Cutting a text at byte offsets -/

namespace Text

/-- The characters between two byte offsets, if the first is not past the second and both lie
between two characters of the text. -/
def cut? (text : List Char) (start stop : Nat) : Option (List Char) :=
  match charsBefore? text start, charsBefore? text stop with
  | some first, some past =>
    if first ≤ past then some ((text.drop first).take (past - first)) else none
  | _, _ => none

theorem charsBefore?_append (before after : List Char) :
    charsBefore? (before ++ after) (byteLength before) = some before.length := by
  induction before with
  | nil => cases after <;> rfl
  | cons c cs ih =>
    obtain ⟨n, hn⟩ : ∃ n, byteLength (c :: cs) = n + 1 :=
      Nat.exists_eq_add_one.mpr (Nat.add_pos_left c.utf8Size_pos _)
    have hrest : n + 1 - c.utf8Size = byteLength cs := by
      rw [← hn, byteLength_cons, Nat.add_sub_cancel_left]
    have hle : c.utf8Size ≤ n + 1 := hn ▸ Nat.le_add_right _ _
    rw [hn, List.cons_append, charsBefore?, if_pos hle, hrest, ih]
    rfl

/-- Cutting gives back what stands between two parts of a text. -/
theorem cut?_append (before chars after : List Char) :
    cut? (before ++ chars ++ after) (byteLength before) (byteLength before + byteLength chars) =
      some chars := by
  have hstart : charsBefore? (before ++ chars ++ after) (byteLength before) =
      some before.length := by
    rw [List.append_assoc, charsBefore?_append]
  have hstop : charsBefore? (before ++ chars ++ after) (byteLength before + byteLength chars) =
      some (before ++ chars).length := by
    rw [← byteLength_append, charsBefore?_append]
  simp only [cut?, hstart, hstop]
  simp

end Text

/-! ## Stretches of trivia -/

namespace Lexeme

/-- Stretches that no token stands for, one after the other in front of the rest of a text. -/
inductive Trivia (rest : List Char) : List Char → Prop where
  | nil : Trivia rest []
  | cons {piece gap : List Char} (skipped : Skipped piece (gap ++ rest))
      (further : Trivia rest gap) : Trivia rest (piece ++ gap)

theorem Trivia.snoc {gap piece rest : List Char} (h : Trivia (piece ++ rest) gap)
    (hpiece : Skipped piece rest) : Trivia rest (gap ++ piece) := by
  induction h with
  | nil => simpa using (Trivia.cons hpiece .nil : Trivia rest (piece ++ []))
  | cons skipped _ ih =>
    rw [List.append_assoc]
    exact .cons (by rwa [List.append_assoc]) ih

end Lexeme

open Lexeme (Skipped Trivia)

/-! ## Tiles -/

/-- A token stands for characters that come after the given ones. -/
structure Token.StandsFor (t : Token) (before chars : List Char) : Prop where
  start_eq : t.span.start.offset = byteLength before
  stop_eq : t.span.stop.offset = byteLength before + byteLength chars
  text_eq : t.kind.isSpelled = true → t.text.toList = chars

/-- The first part of a text is laid with skipped pieces and with what the tokens stand for.
The tokens come latest first. -/
inductive Tiled (text : List Char) : (done rest : List Char) → (emitted : List Token) → Prop where
  | start : Tiled text [] text []
  | skip {done piece rest : List Char} {emitted : List Token}
      (laid : Tiled text done (piece ++ rest) emitted) (skipped : Skipped piece rest) :
      Tiled text (done ++ piece) rest emitted
  | token {done chars rest : List Char} {emitted : List Token} {t : Token}
      (laid : Tiled text done (chars ++ rest) emitted) (standsFor : t.StandsFor done chars) :
      Tiled text (done ++ chars) rest (t :: emitted)

/-- Where the last of a list of tokens ends. -/
def endOf (tokens : List Token) : Nat := (tokens.getLast?.map fun t => t.span.stop.offset).getD 0

theorem endOf_concat (tokens : List Token) (t : Token) :
    endOf (tokens ++ [t]) = t.span.stop.offset := by
  simp [endOf]

namespace Tiled

variable {text done rest : List Char} {emitted : List Token} {t : Token}

theorem text_eq (h : Tiled text done rest emitted) : text = done ++ rest := by
  induction h with
  | start => rfl
  | skip _ _ ih => rw [List.append_assoc, ← ih]
  | token _ _ ih => rw [List.append_assoc, ← ih]

/-- Every token stands for a part of the text that has been laid. -/
theorem standsFor_of_mem (h : Tiled text done rest emitted) (ht : t ∈ emitted) :
    ∃ before chars after, done = before ++ chars ++ after ∧ t.StandsFor before chars := by
  induction h with
  | start => cases ht
  | skip _ _ ih =>
    obtain ⟨before, chars, after, rfl, hstands⟩ := ih ht
    exact ⟨before, chars, _, List.append_assoc _ _ _, hstands⟩
  | token _ hnew ih =>
    rcases List.mem_cons.mp ht with rfl | ht
    · exact ⟨_, _, [], (List.append_nil _).symm, hnew⟩
    · obtain ⟨before, chars, after, rfl, hstands⟩ := ih ht
      exact ⟨before, chars, _, List.append_assoc _ _ _, hstands⟩

theorem stop_le (h : Tiled text done rest emitted) (ht : t ∈ emitted) :
    t.span.stop.offset ≤ byteLength done := by
  obtain ⟨before, chars, after, rfl, hstands⟩ := h.standsFor_of_mem ht
  rw [hstands.stop_eq, ← Text.byteLength_append, Text.byteLength_append (before ++ chars)]
  exact Nat.le_add_right _ _

/-- **The tokens do not overlap.** -/
theorem ordered (h : Tiled text done rest emitted) :
    emitted.Pairwise fun u t => t.span.stop.offset ≤ u.span.start.offset := by
  induction h with
  | start => exact .nil
  | skip _ _ ih => exact ih
  | token laid hnew ih =>
    refine .cons (fun u hu => ?_) ih
    rw [hnew.start_eq]
    exact laid.stop_le hu

/-- What comes after the last token is trivia so far. -/
theorem gap_after (h : Tiled text done rest emitted) :
    ∃ closed gap, done = closed ++ gap ∧ endOf emitted.reverse = byteLength closed ∧
      Trivia rest gap := by
  induction h with
  | start => exact ⟨[], [], rfl, rfl, .nil⟩
  | skip _ skipped ih =>
    obtain ⟨closed, gap, rfl, hend, htrivia⟩ := ih
    exact ⟨closed, _, List.append_assoc _ _ _, hend, htrivia.snoc skipped⟩
  | token _ hnew _ =>
    refine ⟨_, [], (List.append_nil _).symm, ?_, .nil⟩
    rw [List.reverse_cons, endOf_concat, hnew.stop_eq, Text.byteLength_append]

/-- **What lies in front of a token is trivia, back to the token before it.** -/
theorem gap_before (h : Tiled text done rest emitted) {later earlier : List Token}
    (ht : emitted = later ++ t :: earlier) :
    ∃ closed gap after, text = closed ++ gap ++ after ∧ endOf earlier.reverse = byteLength closed ∧
      t.span.start.offset = byteLength closed + byteLength gap ∧ Trivia after gap := by
  induction h generalizing later with
  | start => simp at ht
  | skip _ _ ih => exact ih ht
  | token laid hnew ih =>
    cases later with
    | nil =>
      obtain ⟨rfl, rfl⟩ := List.cons.inj ht
      -- the piece that lay open in front of the token is closed by it
      obtain ⟨closed, gap, rfl, hend, htrivia⟩ := laid.gap_after
      refine ⟨closed, gap, _, laid.text_eq, hend, ?_, htrivia⟩
      rw [hnew.start_eq, Text.byteLength_append]
    | cons _ later => exact ih (List.cons.inj ht).2

end Tiled

/-! ## What the scanner lays -/

namespace Scan

/-- The scanner has laid the text up to its offset. -/
def Covers (text : List Char) (s : Scan) : Prop :=
  ∃ done, s.offset = byteLength done ∧ Tiled text done s.rest s.emitted

namespace Covers

variable {text piece chars rest : List Char} {file : String} {s s' : Scan}

theorem ofText (text : List Char) : (Scan.ofText text).Covers text := ⟨[], rfl, .start⟩

/-- Going past a piece that no token stands for. -/
theorem skip (h : s.Covers text) (hrest : s.rest = piece ++ rest) (hpiece : Skipped piece rest) :
    (s.advance piece).Covers text := by
  obtain ⟨done, hoffset, laid⟩ := h
  rw [hrest] at laid
  refine ⟨done ++ piece, by rw [Text.byteLength_append, ← hoffset]; rfl, ?_⟩
  rw [rest_advance, hrest, List.drop_left]
  exact laid.skip hpiece

/-- Emitting a token and going past its characters. -/
theorem token (h : s.Covers text) (hrest : s.rest = chars ++ rest) {kind : TokenKind}
    {value : String} (hvalue : kind.isSpelled = true → value = String.ofList chars) :
    ((s.emit file kind value chars).advance chars).Covers text := by
  obtain ⟨done, hoffset, laid⟩ := h
  rw [hrest] at laid
  refine ⟨done ++ chars, by rw [Text.byteLength_append, ← hoffset]; rfl, ?_⟩
  rw [rest_advance, rest_emit, hrest, List.drop_left]
  refine laid.token ⟨hoffset, ?_, fun hkind => ?_⟩
  · rw [← hoffset]
    rfl
  · rw [hvalue hkind, String.toList_ofList]

/-- Emitting a layout token that stands for nothing. -/
theorem layout (h : s.Covers text) {kind : TokenKind} (hkind : kind.isSpelled = false)
    (value : String) : (s.emit file kind value []).Covers text := by
  have hnone : s.rest = [] ++ s.rest := rfl
  exact h.token hnone fun hspelled => absurd hspelled (by simp [hkind])

theorem closeBlocks (h : s.Covers text) (target : Nat) (indents : List Nat) :
    (closeBlocks file target s indents).Covers text := by
  induction indents generalizing s with
  | nil => exact h
  | cons top below ih =>
    unfold Scan.closeBlocks
    split
    · exact ih (h.layout rfl "")
    · exact h

theorem indentTo (h : s.Covers text) {target : Nat} (hindent : s.indentTo file target = .ok s') :
    s'.Covers text := by
  unfold Scan.indentTo at hindent
  split at hindent
  · split at hindent
    · cases hindent
      exact h.layout rfl ""
    · cases hindent
  · simp only at hindent
    split at hindent
    · cases hindent
    · cases hindent
      exact h.closeBlocks target s.indents

theorem beginLine (h : s.Covers text) (hline : s.beginLine file = .ok s') : s'.Covers text := by
  have hblanks : (s.advance (s.rest.takeWhile Lexeme.isSpace)).Covers text :=
    h.skip List.takeWhile_append_dropWhile.symm (.blanks fun c hc => List.mem_takeWhile_imp hc)
  unfold Scan.beginLine at hline
  simp only at hline
  split at hline
  · cases hline
    exact hblanks
  · split at hline
    · cases hline
      exact hblanks
    · exact indentTo (s := { s.advance _ with lineStart := false }) hblanks hline

/-- A line end is a token only if there is a line to close. -/
theorem endLine (h : s.Covers text) (hrest : s.rest = chars ++ rest)
    (hchars : Lexeme.IsLineEnd chars) : ((s.endLine file chars).advance chars).Covers text := by
  have hskipped := h.skip hrest (.lineEnd hchars)
  unfold Scan.endLine
  split
  · simp only
    split
    · exact h.token hrest fun hspelled => absurd hspelled (by decide)
    · exact hskipped
  · exact hskipped

theorem readLexeme (h : s.Covers text) (hread : s.readLexeme file = .ok s') : s'.Covers text := by
  unfold Scan.readLexeme at hread
  split at hread
  · cases hread
  · next l hl =>
    cases hread
    obtain ⟨rest, hrest⟩ := Lexeme.prefix_of_next hl
    obtain ⟨piece, chars⟩ := l
    cases piece with
    | trivia => exact h.skip hrest.symm (Lexeme.skipped_of_next hl hrest.symm)
    | lineEnd => exact h.endLine hrest.symm (Lexeme.isLineEnd_of_next hl)
    | token kind value => exact h.token hrest.symm (Lexeme.spelled_of_next hl)

/-- **A step lays the characters that it goes past.** -/
theorem step (h : s.Covers text) (hstep : s.step file = .ok s') : s'.Covers text := by
  unfold Scan.step at hstep
  split at hstep
  · cases hstep
  · next mid hmid =>
    have hmid' : mid.Covers text := by
      split at hmid
      · exact h.beginLine hmid
      · cases hmid
        exact h
    split at hstep
    · cases hstep
      exact hmid'
    · exact hmid'.readLexeme hstep

/-- A run lays the whole text. -/
theorem run (h : s.Covers text) (hrun : s.run file = .ok s') : s'.Covers text ∧ s'.rest = [] := by
  fun_induction Scan.run file s with
  | case1 s hnil =>
    cases hrun
    exact ⟨h, hnil⟩
  | case2 s hne fault hfault => cases hrun
  | case3 s hne next hnext ih => exact ih (h.step hnext) hrun

theorem closeAll (h : s.Covers text) (hrest : s.rest = []) (file : String) (indents : List Nat) :
    (indents.foldl (fun s _ => s.emit file .dedent "" []) s).Covers text ∧
      (indents.foldl (fun s _ => s.emit file .dedent "" []) s).rest = [] := by
  induction indents generalizing s with
  | nil => exact ⟨h, hrest⟩
  | cons _ _ ih => exact ih (h.layout rfl "") hrest

end Covers

/-- The token at the end of a text. -/
def endToken (file : String) (text : List Char) : Token :=
  ⟨.eof, "EOF", ⟨byteLength text, file⟩, ⟨byteLength text, file⟩⟩

/-- At the end of the script the whole text is laid, and the last token stands behind it. -/
theorem Covers.tiled_finish {text : List Char} {s : Scan} (h : s.Covers text)
    (hrest : s.rest = []) (file : String) :
    ∃ emitted, (s.finish file).emitted = endToken file text :: emitted ∧
      Tiled text text [] (endToken file text :: emitted) := by
  have hline : (if s.lineOpen then s.emit file .newline "" [] else s).Covers text ∧
      (if s.lineOpen then s.emit file .newline "" [] else s).rest = [] := by
    split
    · exact ⟨h.layout rfl "", hrest⟩
    · exact ⟨h, hrest⟩
  obtain ⟨⟨done, hoffset, laid⟩, hnil⟩ := hline.1.closeAll hline.2 file
    (if s.lineOpen then s.emit file .newline "" [] else s).indents
  rw [hnil] at laid
  obtain rfl : text = done := by simpa using laid.text_eq
  have hstands : (endToken file text).StandsFor text [] :=
    ⟨rfl, rfl, fun hspelled => absurd hspelled Bool.false_ne_true⟩
  refine ⟨_, ?_, by simpa using laid.token hstands⟩
  rw [endToken, ← hoffset]
  rfl

end Scan

/-! ## The stream -/

/-- The tokens account for every character of a text, each at most once. -/
structure Lossless (file : String) (text : List Char) (tokens : List Token) : Prop where
  /-- A token begins before it ends, and ends before the text does. -/
  inside : ∀ t ∈ tokens, t.span.start.offset ≤ t.span.stop.offset ∧
    t.span.stop.offset ≤ byteLength text
  /-- A token begins and ends between two characters. -/
  bounded : ∀ t ∈ tokens, (charsBefore? text t.span.start.offset).isSome ∧
    (charsBefore? text t.span.stop.offset).isSome
  /-- A token begins where those before it have ended, or later. -/
  ordered : tokens.Pairwise fun t u => t.span.stop.offset ≤ u.span.start.offset
  /-- The last token stands at the end of the text. -/
  closed : tokens.getLast? = some (Scan.endToken file text)
  /-- A token that is neither layout nor a string has the characters in its span as its text. -/
  spelled : ∀ t ∈ tokens, t.kind.isSpelled = true →
    Text.cut? text t.span.start.offset t.span.stop.offset = some t.text.toList
  /-- Between a token and the one before it, or the start of the text, lies only trivia. -/
  gaps : ∀ earlier t later, tokens = earlier ++ t :: later →
    ∃ gap rest, Text.cut? text (endOf earlier) t.span.start.offset = some gap ∧
      Text.cut? text t.span.start.offset (byteLength text) = some rest ∧ Trivia rest gap

/-- **Tiles that end with the token at the end of the text account for all of it.** -/
theorem Tiled.lossless {file : String} {text : List Char} {emitted : List Token}
    (h : Tiled text text [] (Scan.endToken file text :: emitted)) :
    Lossless file text (Scan.endToken file text :: emitted).reverse where
  inside t ht := by
    have hmem := List.mem_reverse.mp ht
    obtain ⟨before, chars, after, -, hstands⟩ := h.standsFor_of_mem hmem
    refine ⟨?_, h.stop_le hmem⟩
    rw [hstands.start_eq, hstands.stop_eq]
    exact Nat.le_add_right _ _
  bounded t ht := by
    obtain ⟨before, chars, after, rfl, hstands⟩ := h.standsFor_of_mem (List.mem_reverse.mp ht)
    rw [hstands.start_eq, hstands.stop_eq, ← Text.byteLength_append, Text.charsBefore?_append,
      List.append_assoc, Text.charsBefore?_append]
    exact ⟨rfl, rfl⟩
  ordered := List.pairwise_reverse.mpr h.ordered
  closed := by simp
  spelled t ht hkind := by
    obtain ⟨before, chars, after, rfl, hstands⟩ := h.standsFor_of_mem (List.mem_reverse.mp ht)
    rw [hstands.start_eq, hstands.stop_eq, hstands.text_eq hkind, Text.cut?_append]
  gaps earlier t later heq := by
    have hrev : Scan.endToken file text :: emitted = later.reverse ++ t :: earlier.reverse := by
      simpa using congrArg List.reverse heq
    obtain ⟨closed, gap, after, rfl, hend, hstart, htrivia⟩ := h.gap_before hrev
    rw [List.reverse_reverse] at hend
    refine ⟨gap, after, ?_, ?_, htrivia⟩
    · rw [hend, hstart, Text.cut?_append]
    · have hcut := Text.cut?_append (closed ++ gap) after []
      rw [List.append_nil, ← Text.byteLength_append, Text.byteLength_append closed] at hcut
      rwa [hstart]

/-- **The spans of the tokens of a script lose nothing of it.** -/
theorem tokenize_lossless {source file : String} {tokens : List Token}
    (h : tokenize source file = .ok tokens) : Lossless file source.toList tokens := by
  unfold tokenize at h
  cases hrun : Scan.run file (.ofText source.toList) with
  | error fault =>
    rw [hrun] at h
    cases h
  | ok s =>
    rw [hrun] at h
    cases h
    obtain ⟨hcovers, hrest⟩ := (Scan.Covers.ofText source.toList).run hrun
    obtain ⟨emitted, hfinish, laid⟩ := hcovers.tiled_finish hrest file
    simp only [hfinish]
    exact laid.lossless

/-- A script with wide characters, a comment and a line end inside brackets, an empty line, a
block and a line that goes on after a backslash. -/
def scatteredScript : String := "f(\"ü\", # é\n  a)\n\nwhile ñ:\r\n\tn \\\n = 1"

/-- The texts of its tokens with the bytes at which they begin and end. -/
def scatteredSpans : List (String × Nat × Nat) :=
  [("f", 0, 1), ("(", 1, 2), ("ü", 2, 6), (",", 6, 7), ("a", 15, 16), (")", 16, 17),
    ("\n", 17, 18), ("while", 19, 24), ("ñ", 25, 27), (":", 27, 28), ("\n", 28, 30),
    ("", 31, 31), ("n", 31, 32), ("=", 36, 37), ("1", 38, 39), ("", 39, 39), ("", 39, 39),
    ("EOF", 39, 39)]

theorem tokenize_lossless_scattered :
    ∃ tokens, tokenize scatteredScript "script" = .ok tokens ∧
      (tokens.map fun t => (t.text, t.span.start.offset, t.span.stop.offset)) = scatteredSpans ∧
      Lossless "script" scatteredScript.toList tokens := by
  have hspans : ((tokenize scatteredScript "script").toOption.map fun tokens =>
      tokens.map fun t => (t.text, t.span.start.offset, t.span.stop.offset)) =
        some scatteredSpans := by
    decide +kernel
  cases htokens : tokenize scatteredScript "script" with
  | error fault =>
    rw [htokens] at hspans
    cases hspans
  | ok tokens =>
    rw [htokens] at hspans
    exact ⟨tokens, rfl, Option.some.inj hspans, tokenize_lossless htokens⟩

end SlotTree

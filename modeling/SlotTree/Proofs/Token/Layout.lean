import SlotTree.Proofs.Token.Cover
import SlotTree.Proofs.Token.Lines

/-!
# The layout of a token stream

Four kinds of tokens say how a script is laid out: a `newline` ends a logical line, an `indent`
and a `dedent` open and close a block, and `eof` ends the script.  None of them is a lexeme.
They come from the scanner, which decides by its state whether there is a line to close, whether
a block may be opened and how many are still open, and this module says what comes of it.

The tokens so far form a word over their kinds, and `Laid` generates these words, one rule for
each way in which the scanner adds a token.  It is indexed by the number of open blocks, so that
a `dedent` needs an `indent` that it closes.  What a layout token must stand behind can be read
off the rule that added it, at any place of the word, because the beginning of a word is a word
(`Laid.of_append`).

Two things are not visible in the word alone.  Layout tokens are added only where no bracket is
open (`Outside`), and where a line begins the line before has been closed.  Both are parts of
the invariant of the scanner (`Scan.LaidOut`), which every step keeps.  The end of the script is
an exception to the first: there the last line is closed whatever is open.
-/

namespace SlotTree

/-- Whether the kind is one that the scanner adds for the layout. -/
def TokenKind.isLayout : TokenKind → Bool
  | eof | newline | indent | dedent => true
  | _ => false

/-- No lexeme is a layout token. -/
theorem Lexeme.isLayout_of_next {cs chars : List Char} {kind : TokenKind} {text : String}
    (h : next cs = .ok ⟨.token kind text, chars⟩) : kind.isLayout = false := by
  rcases next_token_cases h with ⟨mark, rfl⟩ | ⟨rfl, -⟩ | ⟨rfl, -⟩ | ⟨row, hrow, rfl⟩
  · unfold stringKind
    split
    · rfl
    · split <;> rfl
  · rfl
  · unfold nameKind
    split <;> rfl
  · have hall : ∀ row ∈ operators, row.2.isLayout = false := by decide
    exact hall row hrow

/-! ## Words of kinds -/

/-- The kinds of the tokens of a stream without its end, the latest first, and the number of
blocks that are open behind them. -/
inductive Laid : (kinds : List TokenKind) → (blocks : Nat) → Prop where
  | start : Laid [] 0
  | lexeme {kind : TokenKind} {kinds : List TokenKind} {blocks : Nat} (earlier : Laid kinds blocks)
      (plain : kind.isLayout = false) : Laid (kind :: kinds) blocks
  | newline {last : TokenKind} {kinds : List TokenKind} {blocks : Nat}
      (earlier : Laid (last :: kinds) blocks) (isOpen : last ≠ .newline) :
      Laid (.newline :: last :: kinds) blocks
  | indent {kinds : List TokenKind} {blocks : Nat}
      (earlier : Laid (.newline :: .colon :: kinds) blocks) :
      Laid (.indent :: .newline :: .colon :: kinds) (blocks + 1)
  | dedent {last : TokenKind} {kinds : List TokenKind} {blocks : Nat}
      (earlier : Laid (last :: kinds) (blocks + 1)) (isClosed : last = .newline ∨ last = .dedent) :
      Laid (.dedent :: last :: kinds) blocks

namespace Laid

variable {kind : TokenKind} {kinds later earlier : List TokenKind} {blocks : Nat}

theorem tail (h : Laid (kind :: kinds) blocks) : ∃ blocks', Laid kinds blocks' := by
  cases h with
  | lexeme earlier _ => exact ⟨_, earlier⟩
  | newline earlier _ => exact ⟨_, earlier⟩
  | indent earlier => exact ⟨_, earlier⟩
  | dedent earlier _ => exact ⟨_, earlier⟩

/-- The beginning of a word is a word. -/
theorem of_append (h : Laid (later ++ earlier) blocks) : ∃ blocks', Laid earlier blocks' := by
  induction later generalizing blocks with
  | nil => exact ⟨blocks, h⟩
  | cons kind later ih =>
    obtain ⟨blocks', htail⟩ := h.tail
    exact ih htail

theorem ne_eof (h : Laid (kind :: kinds) blocks) : kind ≠ .eof := by
  rintro rfl
  cases h with
  | lexeme _ plain => cases plain

/-- A `newline` stands behind a token that is none. -/
theorem behind_newline (h : Laid (later ++ .newline :: earlier) blocks) :
    ∃ last rest, earlier = last :: rest ∧ last ≠ .newline := by
  obtain ⟨_, hword⟩ := h.of_append
  cases hword with
  | lexeme _ plain => cases plain
  | newline _ isOpen => exact ⟨_, _, rfl, isOpen⟩

/-- An `indent` stands behind a line that ends in a colon. -/
theorem behind_indent (h : Laid (later ++ .indent :: earlier) blocks) :
    ∃ rest, earlier = .newline :: .colon :: rest := by
  obtain ⟨_, hword⟩ := h.of_append
  cases hword with
  | lexeme _ plain => cases plain
  | indent _ => exact ⟨_, rfl⟩

/-- A `dedent` stands behind the end of a line, or behind another one. -/
theorem behind_dedent (h : Laid (later ++ .dedent :: earlier) blocks) :
    ∃ last rest, earlier = last :: rest ∧ (last = .newline ∨ last = .dedent) := by
  obtain ⟨_, hword⟩ := h.of_append
  cases hword with
  | lexeme _ plain => cases plain
  | dedent _ isClosed => exact ⟨_, _, rfl, isClosed⟩

/-- The blocks that have been opened are those that have been closed and those that are open. -/
theorem count_indent (h : Laid kinds blocks) :
    kinds.count .indent = kinds.count .dedent + blocks := by
  induction h with
  | start => rfl
  | @lexeme kind _ _ _ plain ih =>
    have hindent : (kind == .indent) = false := by
      rw [beq_eq_false_iff_ne]
      rintro rfl
      cases plain
    have hdedent : (kind == .dedent) = false := by
      rw [beq_eq_false_iff_ne]
      rintro rfl
      cases plain
    simp only [List.count_cons, hindent, hdedent, ih]
    omega
  | newline _ _ ih => simpa [List.count_cons] using ih
  | indent _ ih =>
    have hne : TokenKind.indent ≠ .dedent := by decide
    rw [List.count_cons_self, List.count_cons_of_ne hne, ih]
    omega
  | dedent _ _ ih =>
    have hne : TokenKind.dedent ≠ .indent := by decide
    rw [List.count_cons_self, List.count_cons_of_ne hne, ih]
    omega

/-- The blocks that are open can all be closed where a line has ended. -/
theorem closed (h : Laid (kind :: kinds) blocks) (hclosed : kind = .newline ∨ kind = .dedent) :
    Laid (List.replicate blocks .dedent ++ kind :: kinds) 0 := by
  induction blocks generalizing kind kinds with
  | zero => exact h
  | succ blocks ih =>
    have hall := ih (h.dedent hclosed) (Or.inr rfl)
    rwa [List.replicate_succ', List.append_assoc, List.singleton_append]

end Laid

/-! ## The depth of brackets -/

/-- The depth of brackets behind tokens, the latest first. -/
def depthBehind (emitted : List Token) : Nat := depthThrough (emitted.reverse.map Token.bare) 0

theorem depthBehind_cons (t : Token) (emitted : List Token) :
    depthBehind (t :: emitted) = t.kind.depthAfter (depthBehind emitted) := by
  rw [depthBehind, List.reverse_cons, List.map_append, depthThrough_append]
  rfl

theorem TokenKind.depthAfter_layout {kind : TokenKind} (h : kind.isLayout = true) (depth : Nat) :
    kind.depthAfter depth = depth := by
  cases kind with
  | eof | newline | indent | dedent => rfl
  | _ => cases h

/-- Every layout token stands outside of all brackets. The tokens come latest first. -/
def Outside (emitted : List Token) : Prop :=
  ∀ later t earlier, emitted = later ++ t :: earlier → t.kind.isLayout = true →
    depthBehind earlier = 0

theorem Outside.cons {t : Token} {emitted : List Token} (h : Outside emitted)
    (ht : t.kind.isLayout = true → depthBehind emitted = 0) : Outside (t :: emitted) := by
  intro later u earlier heq hu
  cases later with
  | nil =>
    obtain ⟨rfl, rfl⟩ := List.cons.inj heq
    exact ht hu
  | cons _ later => exact h later u earlier (List.cons.inj heq).2 hu

/-! ## What the scanner keeps -/

namespace Scan

/-- The tokens that the scanner has emitted so far, of blocks of which some are open. -/
structure Emits (s : Scan) (blocks : Nat) : Prop where
  laid : Laid (s.emitted.map Token.kind) blocks
  outside : Outside s.emitted
  depth_eq : s.depth = depthBehind s.emitted

/-- Where a line begins, the line before it has been closed and no bracket is open. -/
structure LaidOut (s : Scan) : Prop where
  emits : s.Emits s.indents.length
  fresh : s.lineStart = true → s.lineOpen = false ∧ s.depth = 0

variable {file : String} {s s' : Scan} {blocks : Nat}

/-- Where no line is open, the tokens so far end with a line. -/
theorem kind_of_not_lineOpen (h : s.lineOpen = false) :
    ∀ t ∈ s.emitted.head?, t.kind = .newline := by
  unfold lineOpen at h
  intro t ht
  cases hemitted : s.emitted with
  | nil => simp [hemitted] at ht
  | cons u emitted =>
    obtain rfl : u = t := by simpa [hemitted] using ht
    simpa [hemitted] using h

namespace Emits

/-- A layout token where no bracket is open. -/
theorem layout (h : s.Emits blocks) (hdepth : s.depth = 0) {kind : TokenKind} {blocks' : Nat}
    (hlaid : Laid (kind :: s.emitted.map Token.kind) blocks') (hkind : kind.isLayout = true)
    (file text : String) (chars : List Char) : (s.emit file kind text chars).Emits blocks' := by
  refine ⟨hlaid, h.outside.cons fun _ => h.depth_eq.symm.trans hdepth, ?_⟩
  have hsame : (s.emit file kind text chars).depth = depthBehind s.emitted := h.depth_eq
  rw [hsame, emit, depthBehind_cons, TokenKind.depthAfter_layout hkind]

/-- A line that is open can be closed. -/
theorem laid_newline (h : s.Emits blocks) (hopen : s.lineOpen = true) :
    Laid (.newline :: s.emitted.map Token.kind) blocks := by
  have hlaid := h.laid
  unfold lineOpen at hopen
  split at hopen
  · cases hopen
  · next t emitted hemitted =>
    rw [hemitted] at hlaid ⊢
    exact hlaid.newline (by simpa using hopen)

/-- Closing blocks leaves as many open as it keeps. -/
theorem closeBlocks {indents : List Nat} (h : s.Emits indents.length) (hdepth : s.depth = 0)
    (hclosed : ∀ t ∈ s.emitted.head?, t.kind = .newline ∨ t.kind = .dedent) (target : Nat) :
    (closeBlocks file target s indents).Emits
      (closeBlocks file target s indents).indents.length := by
  induction indents generalizing s with
  | nil => exact ⟨h.laid, h.outside, h.depth_eq⟩
  | cons top below ih =>
    unfold Scan.closeBlocks
    split
    · refine ih (h.layout hdepth ?_ rfl file "" []) hdepth fun t ht => ?_
      · -- a block is open, so there are tokens, and the last of them ended a line
        cases hemitted : s.emitted with
        | nil =>
          have hlaid := h.laid
          rw [hemitted, List.map_nil, List.length_cons] at hlaid
          cases hlaid
        | cons t emitted =>
          have hlaid := h.laid
          rw [hemitted] at hlaid
          exact hlaid.dedent (hclosed t (by simp [hemitted]))
      · obtain rfl := Option.some.inj ht
        exact Or.inr rfl
    · exact ⟨h.laid, h.outside, h.depth_eq⟩

end Emits

@[simp] theorem lineStart_closeBlocks (target : Nat) (s : Scan) (indents : List Nat) :
    (closeBlocks file target s indents).lineStart = s.lineStart := by
  induction indents generalizing s with
  | nil => rfl
  | cons top below ih =>
    unfold closeBlocks
    split
    · rw [ih]
      rfl
    · rfl

theorem lineStart_of_indentTo {target : Nat} (h : s.indentTo file target = .ok s') :
    s'.lineStart = s.lineStart := by
  unfold indentTo at h
  split at h
  · split at h
    · cases h
      rfl
    · cases h
  · simp only at h
    split at h
    · cases h
    · cases h
      rw [lineStart_closeBlocks]

/-- Once a line has begun none begins any more. -/
theorem lineStart_of_beginLine (h : s.beginLine file = .ok s') : s'.lineStart = false := by
  unfold beginLine at h
  simp only at h
  split at h
  · cases h
    rfl
  · split at h
    · cases h
      rfl
    · rw [lineStart_of_indentTo h]

namespace LaidOut

theorem ofText (text : List Char) : (Scan.ofText text).LaidOut :=
  ⟨⟨.start, by intro later t earlier h; simp [Scan.ofText] at h, rfl⟩, fun _ => ⟨rfl, rfl⟩⟩

/-- Going past characters changes nothing that the layout depends on. -/
theorem advance (h : s.LaidOut) (chars : List Char) : (s.advance chars).LaidOut :=
  ⟨⟨h.emits.laid, h.emits.outside, h.emits.depth_eq⟩, h.fresh⟩

theorem indentTo (h : s.LaidOut) (hclosed : s.lineOpen = false) (hdepth : s.depth = 0)
    (hstart : s.lineStart = false) {target : Nat} (hindent : s.indentTo file target = .ok s') :
    s'.LaidOut := by
  have hlast := kind_of_not_lineOpen hclosed
  unfold Scan.indentTo at hindent
  split at hindent
  · split at hindent
    · next hcolon =>
      cases hindent
      refine ⟨?_, fun hline => absurd hline (by simp [emit, hstart])⟩
      -- the last two tokens are a colon and the end of its line
      have hlaid : Laid (.indent :: s.emitted.map Token.kind) (s.indents.length + 1) := by
        have hbefore := h.emits.laid
        unfold afterColon at hcolon
        split at hcolon
        · next t u emitted hemitted =>
          rw [hemitted] at hbefore hlast ⊢
          have ht : t.kind = .newline := hlast t rfl
          have hu : u.kind = .colon := by simpa using hcolon
          simp only [List.map_cons, ht, hu] at hbefore ⊢
          exact hbefore.indent
        · cases hcolon
      have hemits := h.emits.layout hdepth hlaid rfl file "" []
      exact ⟨hemits.laid, hemits.outside, hemits.depth_eq⟩
    · cases hindent
  · simp only at hindent
    split at hindent
    · cases hindent
    · cases hindent
      refine ⟨h.emits.closeBlocks hdepth (fun t ht => Or.inl (hlast t ht)) target, fun hline => ?_⟩
      rw [lineStart_closeBlocks, hstart] at hline
      cases hline

theorem beginLine (h : s.LaidOut) (hstart : s.lineStart = true)
    (hline : s.beginLine file = .ok s') : s'.LaidOut := by
  obtain ⟨hclosed, hdepth⟩ := h.fresh hstart
  have hblanks : ({ s.advance (s.rest.takeWhile Lexeme.isSpace) with lineStart := false } :
      Scan).LaidOut :=
    ⟨⟨h.emits.laid, h.emits.outside, h.emits.depth_eq⟩, fun hline => by cases hline⟩
  unfold Scan.beginLine at hline
  simp only at hline
  split at hline
  · cases hline
    exact hblanks
  · split at hline
    · cases hline
      exact hblanks
    · exact hblanks.indentTo hclosed hdepth rfl hline

theorem endLine (h : s.LaidOut) (chars : List Char) : (s.endLine file chars).LaidOut := by
  by_cases hdepth : s.depth = 0
  · rw [endLine_of_depth hdepth]
    cases hopen : s.lineOpen with
    | false => exact ⟨⟨h.emits.laid, h.emits.outside, h.emits.depth_eq⟩, fun _ => ⟨hopen, hdepth⟩⟩
    | true =>
      have hemits := h.emits.layout hdepth (h.emits.laid_newline hopen) rfl file "\n" chars
      exact ⟨⟨hemits.laid, hemits.outside, hemits.depth_eq⟩, fun _ => ⟨rfl, hdepth⟩⟩
  · rw [Scan.endLine, beq_eq_false_iff_ne.mpr hdepth]
    exact h

theorem readLexeme (h : s.LaidOut) (hstart : s.lineStart = false)
    (hread : s.readLexeme file = .ok s') : s'.LaidOut := by
  unfold Scan.readLexeme at hread
  split at hread
  · cases hread
  · next l hl =>
    cases hread
    obtain ⟨piece, chars⟩ := l
    cases piece with
    | trivia => exact h.advance chars
    | lineEnd => exact (h.endLine chars).advance chars
    | token kind value =>
      have hplain := Lexeme.isLayout_of_next hl
      refine ⟨⟨h.emits.laid.lexeme hplain, h.emits.outside.cons fun hlayout => ?_, ?_⟩, ?_⟩
      · exact absurd (hplain.symm.trans hlayout) Bool.false_ne_true
      · have hdepth := congrArg kind.depthAfter h.emits.depth_eq
        exact hdepth.trans (depthBehind_cons ⟨kind, value, s.spanOf file chars⟩ s.emitted).symm
      · exact fun hline => absurd (hstart.symm.trans hline) Bool.false_ne_true

/-- **A step keeps the layout.** -/
theorem step (h : s.LaidOut) (hstep : s.step file = .ok s') : s'.LaidOut := by
  unfold Scan.step at hstep
  split at hstep
  · cases hstep
  · next mid hmid =>
    have hmid' : mid.LaidOut ∧ mid.lineStart = false := by
      split at hmid
      · next hstart => exact ⟨h.beginLine hstart hmid, lineStart_of_beginLine hmid⟩
      · next hstart =>
        cases hmid
        exact ⟨h, by simpa using hstart⟩
    split at hstep
    · cases hstep
      exact hmid'.1
    · exact hmid'.1.readLexeme hmid'.2 hstep

theorem run (h : s.LaidOut) (hrun : s.run file = .ok s') : s'.LaidOut := by
  fun_induction Scan.run file s with
  | case1 s hnil =>
    cases hrun
    exact h
  | case2 s hne fault hfault => cases hrun
  | case3 s hne next hnext ih => exact ih (h.step hnext) hrun

end LaidOut

/-! ## The end of the script -/

/-- A token that the end of the script adds. -/
def endMark (file : String) (s : Scan) (kind : TokenKind) (text : String) : Token :=
  ⟨kind, text, s.spanOf file []⟩

/-- The tokens that the end of the script adds. -/
def closing (file : String) (s : Scan) : List Token :=
  (if s.lineOpen then [s.endMark file .newline ""] else []) ++
    (List.replicate s.indents.length (s.endMark file .dedent "") ++ [s.endMark file .eof "EOF"])

theorem emitted_closeAll (file : String) (s : Scan) (indents : List Nat) :
    (indents.foldl (fun s _ => s.emit file .dedent "" []) s).emitted =
      List.replicate indents.length (s.endMark file .dedent "") ++ s.emitted ∧
    (indents.foldl (fun s _ => s.emit file .dedent "" []) s).offset = s.offset := by
  induction indents generalizing s with
  | nil => exact ⟨rfl, rfl⟩
  | cons _ below ih =>
    obtain ⟨hemitted, hoffset⟩ := ih (s.emit file .dedent "" [])
    refine ⟨?_, hoffset⟩
    rw [List.foldl_cons, hemitted, List.length_cons, List.replicate_succ', List.append_assoc]
    rfl

/-- **The end of the script adds its tokens behind those that are there.** -/
theorem emitted_finish (file : String) (s : Scan) :
    (s.finish file).emitted.reverse = s.emitted.reverse ++ s.closing file := by
  have hclose : ∀ s : Scan, (((s.indents.foldl (fun s _ => s.emit file .dedent "" []) s).emit
      file .eof "EOF" []).emitted).reverse = s.emitted.reverse ++
        (List.replicate s.indents.length (s.endMark file .dedent "") ++
          [s.endMark file .eof "EOF"]) := by
    intro s
    obtain ⟨hemitted, hoffset⟩ := emitted_closeAll file s s.indents
    generalize s.indents.foldl (fun s _ => s.emit file .dedent "" []) s = s' at hemitted hoffset
    simp [emit, spanOf, endMark, hemitted, hoffset]
  unfold finish closing
  cases s.lineOpen with
  | false => exact hclose s
  | true =>
    have hline := hclose (s.emit file .newline "" [])
    simp only [if_true]
    refine hline.trans ?_
    simp [emit, spanOf, endMark]

theorem mem_closing {t : Token} (h : t ∈ s.closing file) :
    t = s.endMark file .newline "" ∨ t = s.endMark file .dedent "" ∨
      t = s.endMark file .eof "EOF" := by
  unfold closing at h
  rcases List.mem_append.mp h with hline | hrest
  · split at hline
    · exact Or.inl (List.mem_singleton.mp hline)
    · cases hline
  · rcases List.mem_append.mp hrest with hblock | hend
    · exact Or.inr (Or.inl (List.eq_of_mem_replicate hblock))
    · exact Or.inr (Or.inr (List.mem_singleton.mp hend))

theorem span_of_mem_closing {t : Token} (h : t ∈ s.closing file) : t.span = s.spanOf file [] := by
  rcases mem_closing h with rfl | rfl | rfl <;> rfl

/-- The kinds of the tokens of a script, the latest first and without the end of the script. -/
def closedKinds (s : Scan) : List TokenKind :=
  List.replicate s.indents.length .dedent ++
    ((if s.lineOpen then [.newline] else []) ++ s.emitted.map Token.kind)

theorem kinds_finish (file : String) (s : Scan) :
    (s.finish file).emitted.reverse.map Token.kind = s.closedKinds.reverse ++ [.eof] := by
  rw [emitted_finish, closing, closedKinds]
  cases s.lineOpen <;> simp [endMark]

/-- A script without tokens has no lines, and every other one ends with a line. -/
theorem LaidOut.lastLine (h : s.LaidOut) :
    s.closedKinds = [] ∨
      ∃ kinds, s.closedKinds = List.replicate s.indents.length .dedent ++ .newline :: kinds ∧
        Laid (.newline :: kinds) s.indents.length := by
  have hlaid := h.emits.laid
  unfold closedKinds
  cases hopen : s.lineOpen with
  | true => exact Or.inr ⟨_, rfl, h.emits.laid_newline hopen⟩
  | false =>
    have hlast := kind_of_not_lineOpen hopen
    cases hemitted : s.emitted with
    | nil =>
      rw [hemitted] at hlaid
      generalize s.indents.length = blocks at hlaid ⊢
      cases hlaid
      exact Or.inl rfl
    | cons t emitted =>
      have ht : t.kind = .newline := hlast t (by simp [hemitted])
      rw [hemitted, List.map_cons, ht] at hlaid
      exact Or.inr ⟨_, by simp [ht], hlaid⟩

/-- **At the end of the script every block is closed.** -/
theorem LaidOut.laid_closedKinds (h : s.LaidOut) : Laid s.closedKinds 0 := by
  rcases h.lastLine with hnone | ⟨kinds, hline, hlaid⟩
  · rw [hnone]
    exact .start
  · rw [hline]
    exact hlaid.closed (Or.inl rfl)

end Scan

/-! ## The stream -/

/-- The tokens of a script are laid out in lines and blocks. -/
structure LaidOut (text : List Char) (tokens : List Token) : Prop where
  /-- There is nothing but the end, or the last line and the open blocks are closed before it. -/
  ends : tokens.map Token.kind = [.eof] ∨
    ∃ before blocks, tokens.map Token.kind =
      before ++ .newline :: (List.replicate blocks .dedent ++ [.eof])
  /-- The end stands nowhere else. -/
  eof_last : ∀ before t after, tokens = before ++ t :: after → t.kind = .eof → after = []
  /-- A line is not empty: its end stands behind a token that is no line end. -/
  newline_behind : ∀ before t after, tokens = before ++ t :: after → t.kind = .newline →
    ∃ u, before.getLast? = some u ∧ u.kind ≠ .newline
  /-- A block is opened by a line that ends in a colon. -/
  indent_behind : ∀ before t after, tokens = before ++ t :: after → t.kind = .indent →
    ∃ line colon newline, before = line ++ [colon, newline] ∧ colon.kind = .colon ∧
      newline.kind = .newline
  /-- A block is closed behind a line, or behind the end of a block in it. -/
  dedent_behind : ∀ before t after, tokens = before ++ t :: after → t.kind = .dedent →
    ∃ u, before.getLast? = some u ∧ (u.kind = .newline ∨ u.kind = .dedent)
  /-- No block is closed that has not been opened. -/
  nested : ∀ before after, tokens = before ++ after →
    (before.map Token.kind).count .dedent ≤ (before.map Token.kind).count .indent
  /-- Every block is closed. -/
  balanced : (tokens.map Token.kind).count .dedent = (tokens.map Token.kind).count .indent
  /-- Up to the tokens that the end of the script adds, lines end and blocks begin and end outside
  of all brackets. -/
  outside : ∃ body closing, tokens = body ++ closing ∧
    (∃ line blocks, (line = [] ∨ line = [.newline]) ∧
      closing.map Token.kind = line ++ (List.replicate blocks .dedent ++ [.eof])) ∧
    (∀ t ∈ closing, t.span.start.offset = Text.byteLength text ∧
      t.span.stop.offset = Text.byteLength text) ∧
    ∀ before t after, body = before ++ t :: after →
      t.kind = .newline ∨ t.kind = .indent ∨ t.kind = .dedent →
      depthThrough (before.map Token.bare) 0 = 0

/-- Cutting a stream anywhere before its end cuts the word of its kinds. -/
theorem Laid.cut {word : List TokenKind} {tokens before after : List Token}
    (hword : tokens.map Token.kind = word.reverse ++ [.eof]) (heq : tokens = before ++ after)
    (hne : after ≠ []) : ∃ later, word = later ++ before.reverse.map Token.kind := by
  obtain ⟨after, last, rfl⟩ := (List.eq_nil_or_concat after).resolve_left hne
  have hsplit : (before ++ after).map Token.kind ++ [last.kind] = word.reverse ++ [.eof] := by
    rw [← hword, heq]
    simp
  have hcut := (List.append_inj' hsplit rfl).1
  refine ⟨after.reverse.map Token.kind, ?_⟩
  rw [← List.reverse_reverse word, ← hcut]
  simp

/-- A token that is not the end of the script stands in the word of the kinds. -/
theorem Laid.cut_at {word : List TokenKind} {tokens before after : List Token} {t : Token}
    (hword : tokens.map Token.kind = word.reverse ++ [.eof]) (heq : tokens = before ++ t :: after)
    (ht : t.kind ≠ .eof) : ∃ later, word = later ++ t.kind :: before.reverse.map Token.kind := by
  have hne : after ≠ [] := by
    rintro rfl
    rw [heq, List.map_append] at hword
    exact ht (by simpa using (List.append_inj' hword rfl).2)
  obtain ⟨later, hlater⟩ := Laid.cut hword (heq.trans (List.append_cons _ _ _)) hne
  exact ⟨later, by simpa using hlater⟩

theorem Token.getLast?_of_kinds {before : List Token} {last : TokenKind} {kinds : List TokenKind}
    (h : before.reverse.map Token.kind = last :: kinds) :
    ∃ u, before.getLast? = some u ∧ u.kind = last := by
  obtain ⟨u, rest, hrev, rfl, -⟩ := List.map_eq_cons_iff.mp h
  exact ⟨u, by rw [← List.head?_reverse, hrev]; rfl, rfl⟩

/-- **The end of the script completes the layout.** -/
theorem Scan.LaidOut.finish {s : Scan} (h : s.LaidOut) {text : List Char}
    (hoffset : s.offset = Text.byteLength text) (file : String) :
    SlotTree.LaidOut text (s.finish file).emitted.reverse := by
  have hlaid := h.laid_closedKinds
  have hkinds := kinds_finish file s
  have hbalanced := hlaid.count_indent
  constructor
  case ends =>
    rw [hkinds]
    rcases h.lastLine with hnone | ⟨kinds, hline, -⟩
    · exact Or.inl (by rw [hnone]; rfl)
    · exact Or.inr ⟨kinds.reverse, s.indents.length, by simp [hline]⟩
  case eof_last =>
    intro before t after heq ht
    by_contra hne
    obtain ⟨later, hword⟩ := Laid.cut hkinds (heq.trans (List.append_cons _ _ _)) hne
    rw [hword] at hlaid
    obtain ⟨blocks, hearlier⟩ := hlaid.of_append
    rw [List.reverse_append, List.map_append] at hearlier
    exact hearlier.ne_eof ht
  case newline_behind =>
    intro before t after heq ht
    obtain ⟨later, hword⟩ := Laid.cut_at hkinds heq (by simp [ht])
    rw [hword, ht] at hlaid
    obtain ⟨last, rest, hlast, hne⟩ := hlaid.behind_newline
    obtain ⟨u, hu, rfl⟩ := Token.getLast?_of_kinds hlast
    exact ⟨u, hu, hne⟩
  case indent_behind =>
    intro before t after heq ht
    obtain ⟨later, hword⟩ := Laid.cut_at hkinds heq (by simp [ht])
    rw [hword, ht] at hlaid
    obtain ⟨rest, hlast⟩ := hlaid.behind_indent
    obtain ⟨newline, line, hrev, hnewline, hrest⟩ := List.map_eq_cons_iff.mp hlast
    obtain ⟨colon, line, rfl, hcolon, -⟩ := List.map_eq_cons_iff.mp hrest
    refine ⟨line.reverse, colon, newline, ?_, hcolon, hnewline⟩
    rw [← List.reverse_reverse before, hrev]
    simp
  case dedent_behind =>
    intro before t after heq ht
    obtain ⟨later, hword⟩ := Laid.cut_at hkinds heq (by simp [ht])
    rw [hword, ht] at hlaid
    obtain ⟨last, rest, hlast, hclosed⟩ := hlaid.behind_dedent
    obtain ⟨u, hu, rfl⟩ := Token.getLast?_of_kinds hlast
    exact ⟨u, hu, hclosed⟩
  case nested =>
    intro before after heq
    by_cases hne : after = []
    · have hall : before.map Token.kind = s.closedKinds.reverse ++ [.eof] := by
        rw [← hkinds, heq, hne, List.append_nil]
      rw [hall]
      simp [List.count_append, hbalanced]
    · obtain ⟨later, hword⟩ := Laid.cut hkinds heq hne
      rw [hword] at hlaid
      obtain ⟨blocks, hearlier⟩ := hlaid.of_append
      have hcount := hearlier.count_indent
      rw [List.map_reverse, List.count_reverse, List.count_reverse] at hcount
      omega
  case balanced =>
    rw [hkinds]
    simp [List.count_append, hbalanced]
  case outside =>
    refine ⟨_, _, emitted_finish file s, ?_, ?_, ?_⟩
    · refine ⟨if s.lineOpen then [.newline] else [], s.indents.length, by split <;> simp, ?_⟩
      rw [closing]
      cases s.lineOpen <;> simp [endMark]
    · intro t ht
      rw [span_of_mem_closing ht, ← hoffset]
      exact ⟨rfl, rfl⟩
    · intro before t after heq hkind
      have hrev : s.emitted = after.reverse ++ t :: before.reverse := by
        simpa using congrArg List.reverse heq
      have hlayout : t.kind.isLayout = true := by
        rcases hkind with hkind | hkind | hkind <;> rw [hkind] <;> rfl
      have hdepth := h.emits.outside _ _ _ hrev hlayout
      rwa [depthBehind, List.reverse_reverse] at hdepth

/-- The tokens of a script are those of a run with the end of the script behind them. -/
theorem tokenize_eq_ok_iff {source file : String} {tokens : List Token} :
    tokenize source file = .ok tokens ↔
      ∃ s, Scan.run file (.ofText source.toList) = .ok s ∧
        (s.finish file).emitted.reverse = tokens := by
  unfold tokenize
  cases Scan.run file (.ofText source.toList) with
  | error fault => simp [Except.map]
  | ok s => simp [Except.map]

/-- **Every script that has tokens is laid out in lines and blocks.** -/
theorem tokenize_laidOut {source file : String} {tokens : List Token}
    (h : tokenize source file = .ok tokens) : LaidOut source.toList tokens := by
  obtain ⟨s, hrun, rfl⟩ := tokenize_eq_ok_iff.mp h
  obtain ⟨⟨done, hoffset, laid⟩, hrest⟩ := (Scan.Covers.ofText source.toList).run hrun
  -- nothing is left of the text, so the scanner stands at its end
  have hdone : source.toList = done := by simpa [hrest] using laid.text_eq
  exact ((Scan.LaidOut.ofText source.toList).run hrun).finish (by rw [hoffset, ← hdone]) file

/-- A script with a block in a block, brackets over a line end, an empty line, a comment at a
column of its own and a bracket that is never closed. -/
def nestedScript : String := "while a:\n  if b:\n      f(\n 1)\n\n # c\n  x = [\n\n"

/-- The kinds of its tokens. -/
def nestedKinds : List TokenKind :=
  [.reserved .while_, .identifier, .colon, .newline, .indent, .reserved .if_, .identifier, .colon,
    .newline, .indent, .identifier, .openParen, .number, .closeParen, .newline, .dedent,
    .identifier, .assignment, .openBracket, .newline, .dedent, .eof]

theorem tokenize_laidOut_nested :
    ∃ tokens, tokenize nestedScript "script" = .ok tokens ∧
      tokens.map Token.kind = nestedKinds ∧ LaidOut nestedScript.toList tokens := by
  have hkinds : ((tokenize nestedScript "script").toOption.map fun tokens =>
      tokens.map Token.kind) = some nestedKinds := by
    decide +kernel
  cases htokens : tokenize nestedScript "script" with
  | error fault =>
    rw [htokens] at hkinds
    cases hkinds
  | ok tokens =>
    rw [htokens] at hkinds
    exact ⟨tokens, rfl, Option.some.inj hkinds, tokenize_laidOut htokens⟩

end SlotTree

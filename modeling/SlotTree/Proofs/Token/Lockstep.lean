import SlotTree.Proofs.Token.Layout

/-!
# Two scanners in lockstep

Two scripts that differ in places that no token stands for are read in the same way, but not at the
same offsets, so their tokens are not equal.  What they have in common is what the tokens say
(`Token.content`).  Two scanners are *abreast* if they have come to tokens that say the same and are
in the same state otherwise, each with a text of its own ahead (`Scan.Abreast`).

How the two texts belong together is a parameter.  It matters only where a line begins and where a
lexeme is read.  A relation between texts that leaves the blanks in front of a line and the question
whether there is anything on the line as they are is enough for the first (`SameLayout`), and from
there on one description of a pair of steps serves every relation (`Scan.Abreast.step_cases`): both
fail for the same cause, both come to the end, or both read a lexeme.
-/

namespace SlotTree

/-- What a token says, without its place. -/
def Token.content (t : Token) : TokenKind × String := (t.kind, t.text)

/-- Two outcomes are results that are related, or faults with the same cause. -/
inductive Agree {α β : Type} (r : α → β → Prop) : Except Fault α → Except Fault β → Prop where
  | ok {a : α} {b : β} (related : r a b) : Agree r (.ok a) (.ok b)
  | error {f g : Fault} (cause : f.cause = g.cause) : Agree r (.error f) (.error g)

theorem Agree.map {α β γ δ : Type} {r : α → β → Prop} {r' : γ → δ → Prop} {f : α → γ} {g : β → δ}
    {x : Except Fault α} {y : Except Fault β} (h : Agree r x y)
    (hfg : ∀ a b, r a b → r' (f a) (g b)) : Agree r' (x.map f) (y.map g) := by
  cases h with
  | ok related => exact .ok (hfg _ _ related)
  | error cause => exact .error cause

/-- Whether nothing stands on a line, given the text behind its blanks. -/
def nothingOn : List Char → Bool
  | [] => true
  | c :: _ => Lexeme.isLineEndChar c || c == '#'

/-- The texts begin with the same blanks, and have both something behind them on the line or
nothing. -/
structure SameLayout (r : List Char → List Char → Prop) : Prop where
  blanks : ∀ {cs ds}, r cs ds → cs.takeWhile Lexeme.isSpace = ds.takeWhile Lexeme.isSpace
  behind : ∀ {cs ds}, r cs ds → r (cs.dropWhile Lexeme.isSpace) (ds.dropWhile Lexeme.isSpace)
  nothing : ∀ {cs ds}, r cs ds → nothingOn cs = nothingOn ds
  ends : ∀ {cs ds}, r cs ds → (cs = [] ↔ ds = [])

theorem SameLayout.eq : SameLayout Eq where
  blanks h := h ▸ rfl
  behind h := h ▸ rfl
  nothing h := h ▸ rfl
  ends h := h ▸ Iff.rfl

namespace Scan

variable {file : String} {r r' : List Char → List Char → Prop} {s s' t : Scan}

/-- The state in which a lexeme is read: a line has begun, if one begins here. -/
def opened (file : String) (s : Scan) : Except Fault Scan :=
  if s.lineStart then s.beginLine file else .ok s

theorem step_eq (file : String) (s : Scan) :
    s.step file = match s.opened file with
      | .error fault => .error fault
      | .ok s => if s.rest.isEmpty then .ok s else s.readLexeme file := rfl

/-- A step begins a line, if one begins here, and reads a lexeme, if one is left. -/
theorem exists_of_step (h : s.step file = .ok s') :
    ∃ mid, s.opened file = .ok mid ∧
      ((mid.rest = [] ∧ s' = mid) ∨
        ∃ l, Lexeme.next mid.rest = .ok l ∧ s' = mid.accept file l) := by
  rw [step_eq] at h
  split at h
  · cases h
  · next mid hmid =>
    refine ⟨mid, hmid, ?_⟩
    split at h
    · next hnil =>
      cases h
      exact Or.inl ⟨by simpa using hnil, rfl⟩
    · unfold readLexeme at h
      split at h
      · cases h
      · next l hl =>
        cases h
        exact Or.inr ⟨l, hl, rfl⟩

theorem of_opened (h : s.opened file = .ok s') : s'.rest <:+ s.rest ∧ s'.lineStart = false := by
  unfold opened at h
  split at h
  · rw [rest_of_beginLine h]
    exact ⟨List.drop_suffix _ _, lineStart_of_beginLine h⟩
  · next hstart =>
    cases h
    exact ⟨List.suffix_rfl, by simpa using hstart⟩

/-- The scanners have come to tokens that say the same, and differ only in their places and in the
texts ahead of them, which are related. -/
structure Abreast (r : List Char → List Char → Prop) (s t : Scan) : Prop where
  rest : r s.rest t.rest
  emitted : s.emitted.map Token.content = t.emitted.map Token.content
  indents : s.indents = t.indents
  depth : s.depth = t.depth
  lineStart : s.lineStart = t.lineStart

theorem kinds_congr {ts us : List Token} (h : ts.map Token.content = us.map Token.content) :
    ts.map Token.kind = us.map Token.kind := by
  have hfirst := congrArg (List.map Prod.fst) h
  rwa [List.map_map, List.map_map] at hfirst

/-- Whether a line is open can be told from what the tokens say. -/
theorem lineOpen_congr (h : s.emitted.map Token.content = t.emitted.map Token.content) :
    s.lineOpen = t.lineOpen := by
  have hkinds : ∀ s : Scan,
      s.lineOpen = (s.emitted.map Token.kind).head?.any fun kind => kind != .newline := by
    intro s
    unfold lineOpen
    cases s.emitted <;> rfl
  rw [hkinds, hkinds, kinds_congr h]

/-- So can whether a block may be opened. -/
theorem afterColon_congr (h : s.emitted.map Token.content = t.emitted.map Token.content) :
    s.afterColon = t.afterColon := by
  have hkinds : ∀ s : Scan,
      s.afterColon = (s.emitted.map Token.kind)[1]?.any fun kind => kind == .colon := by
    intro s
    unfold afterColon
    rcases s.emitted with _ | ⟨t, _ | ⟨u, emitted⟩⟩ <;> rfl
  rw [hkinds, hkinds, kinds_congr h]

/-- The state behind the blanks of a line that begins. -/
def pastBlanks (s : Scan) : Scan :=
  { s.advance (s.rest.takeWhile Lexeme.isSpace) with lineStart := false }

theorem rest_pastBlanks (s : Scan) : s.pastBlanks.rest = s.rest.dropWhile Lexeme.isSpace := by
  have hsplit := List.takeWhile_append_dropWhile (p := Lexeme.isSpace) (l := s.rest)
  calc s.pastBlanks.rest = s.rest.drop (s.rest.takeWhile Lexeme.isSpace).length := rfl
    _ = (s.rest.takeWhile Lexeme.isSpace ++ s.rest.dropWhile Lexeme.isSpace).drop
        (s.rest.takeWhile Lexeme.isSpace).length := by rw [hsplit]
    _ = s.rest.dropWhile Lexeme.isSpace := List.drop_left

/-- The column behind the blanks counts if there is something on the line. -/
theorem beginLine_eq (file : String) (s : Scan) :
    s.beginLine file =
      if nothingOn s.pastBlanks.rest then .ok s.pastBlanks
      else s.pastBlanks.indentTo file ((s.rest.takeWhile Lexeme.isSpace).foldl columnAfter 0) := by
  change (match s.pastBlanks.rest with | [] => _ | c :: _ => _) = _
  cases s.pastBlanks.rest with
  | nil => rfl
  | cons c cs => rfl

namespace Abreast

variable (file)

theorem emit (h : Abreast r s t) (kind : TokenKind) (text : String) (cs ds : List Char) :
    Abreast r (s.emit file kind text cs) (t.emit file kind text ds) :=
  ⟨h.rest, by simp [Scan.emit, Token.content, h.emitted], h.indents, h.depth, h.lineStart⟩

theorem advance (h : Abreast r s t) {cs ds : List Char}
    (hrest : r' (s.rest.drop cs.length) (t.rest.drop ds.length)) :
    Abreast r' (s.advance cs) (t.advance ds) :=
  ⟨hrest, h.emitted, h.indents, h.depth, h.lineStart⟩

theorem closeBlocks (h : Abreast r s t) (target : Nat) (indents : List Nat) :
    Abreast r (closeBlocks file target s indents) (closeBlocks file target t indents) := by
  induction indents generalizing s t with
  | nil => exact ⟨h.rest, h.emitted, rfl, h.depth, h.lineStart⟩
  | cons top below ih =>
    unfold Scan.closeBlocks
    split
    · exact ih (h.emit file .dedent "" [] [])
    · exact ⟨h.rest, h.emitted, rfl, h.depth, h.lineStart⟩

theorem indentTo (h : Abreast r s t) (target : Nat) :
    Agree (Abreast r) (s.indentTo file target) (t.indentTo file target) := by
  have hcolon := afterColon_congr h.emitted
  have hclosed := h.closeBlocks file target t.indents
  unfold Scan.indentTo
  rw [h.indents, hcolon]
  split
  · split
    · have hemit := h.emit file .indent "" [] []
      exact .ok ⟨hemit.rest, hemit.emitted, rfl, hemit.depth, hemit.lineStart⟩
    · exact .error rfl
  · simp only [hclosed.indents]
    split
    · exact .error rfl
    · exact .ok hclosed

theorem beginLine (hr : SameLayout r) (h : Abreast r s t) :
    Agree (Abreast r) (s.beginLine file) (t.beginLine file) := by
  have hpast : Abreast r s.pastBlanks t.pastBlanks := by
    refine ⟨?_, h.emitted, h.indents, h.depth, rfl⟩
    rw [rest_pastBlanks, rest_pastBlanks]
    exact hr.behind h.rest
  rw [beginLine_eq, beginLine_eq, hr.nothing hpast.rest, hr.blanks h.rest]
  split
  · exact .ok hpast
  · exact hpast.indentTo file _

theorem opened (hr : SameLayout r) (h : Abreast r s t) :
    Agree (Abreast r) (s.opened file) (t.opened file) := by
  unfold Scan.opened
  rw [h.lineStart]
  split
  · exact h.beginLine file hr
  · exact .ok h

theorem endLine (h : Abreast r s t) (cs ds : List Char) :
    Abreast r (s.endLine file cs) (t.endLine file ds) := by
  unfold Scan.endLine
  rw [h.depth, lineOpen_congr h.emitted]
  split
  · dsimp only
    have hemit := h.emit file .newline "\n" cs ds
    split
    · exact ⟨hemit.rest, hemit.emitted, hemit.indents, hemit.depth, rfl⟩
    · exact ⟨h.rest, h.emitted, h.indents, h.depth, rfl⟩
  · exact h

/-- Lexemes of the same sort keep the scanners abreast. -/
theorem accept (h : Abreast r s t) (piece : Piece) {cs ds : List Char}
    (hrest : r' (s.rest.drop cs.length) (t.rest.drop ds.length)) :
    Abreast r' (s.accept file ⟨piece, cs⟩) (t.accept file ⟨piece, ds⟩) := by
  cases piece with
  | trivia => exact h.advance hrest
  | lineEnd => exact (h.endLine file cs ds).advance (by simpa using hrest)
  | token kind text =>
    have hemit := h.emit file kind text cs ds
    exact ⟨hrest, hemit.emitted, h.indents, congrArg kind.depthAfter h.depth, h.lineStart⟩

/-- **What a step of each of two scanners can do**: both fail for the same cause, both come to the
end of their texts, or both read a lexeme. -/
theorem step_cases (hr : SameLayout r) (h : Abreast r s t) :
    (∃ f g, s.step file = .error f ∧ t.step file = .error g ∧ f.cause = g.cause) ∨
    ∃ s' t', s.opened file = .ok s' ∧ Abreast r s' t' ∧
      ((s'.rest = [] ∧ t'.rest = [] ∧ s.step file = .ok s' ∧ t.step file = .ok t') ∨
       (s'.rest ≠ [] ∧ s.step file = s'.readLexeme file ∧ t.step file = t'.readLexeme file)) := by
  have hagree := h.opened file hr
  rw [step_eq file s, step_eq file t]
  generalize s.opened file = first at hagree
  generalize t.opened file = second at hagree
  cases hagree with
  | error cause => exact Or.inl ⟨_, _, rfl, rfl, cause⟩
  | @ok s' t' hopened =>
    refine Or.inr ⟨s', t', rfl, hopened, ?_⟩
    by_cases hnil : s'.rest = []
    · have hnil' := (hr.ends hopened.rest).mp hnil
      exact Or.inl ⟨hnil, hnil', by simp [hnil], by simp [hnil']⟩
    · have hne' : t'.rest ≠ [] := fun heq => hnil ((hr.ends hopened.rest).mpr heq)
      exact Or.inr ⟨hnil, by simp [hnil], by simp [hne']⟩

theorem readLexeme (h : Abreast Eq s t) :
    Agree (Abreast Eq) (s.readLexeme file) (t.readLexeme file) := by
  unfold Scan.readLexeme
  rw [h.rest]
  split
  · exact .error rfl
  · next l _ => exact .ok (h.accept file l.piece (by rw [h.rest]))

theorem step (h : Abreast Eq s t) : Agree (Abreast Eq) (s.step file) (t.step file) := by
  rcases h.step_cases file .eq with
    ⟨f, g, hs, ht, hcause⟩ | ⟨s', t', -, h', ⟨-, -, hs, ht⟩ | ⟨-, hs, ht⟩⟩
  · rw [hs, ht]
    exact .error hcause
  · rw [hs, ht]
    exact .ok h'
  · rw [hs, ht]
    exact h'.readLexeme file

/-- **The scanner does not look at places**: over the same text two scanners stay abreast. -/
theorem run (h : Abreast Eq s t) : Agree (Abreast Eq) (s.run file) (t.run file) := by
  fun_induction Scan.run file s generalizing t with
  | case1 s hnil =>
    rw [run_nil (h.rest ▸ hnil)]
    exact .ok h
  | case2 s hne fault hfault =>
    have hagree := h.step file
    rw [hfault] at hagree
    generalize hstep : t.step file = outcome at hagree
    cases hagree with
    | error cause =>
      rw [run_of_fault (h.rest ▸ hne) hstep]
      exact .error cause
  | case3 s hne next hnext ih =>
    have hagree := h.step file
    rw [hnext] at hagree
    generalize hstep : t.step file = outcome at hagree
    cases hagree with
    | ok h' =>
      rw [run_of_step (h.rest ▸ hne) hstep]
      exact ih h'

/-- At the end of the script the same tokens are added. -/
theorem finish (h : Abreast r s t) :
    (s.finish file).emitted.reverse.map Token.content =
      (t.finish file).emitted.reverse.map Token.content := by
  have hclosing : (s.closing file).map Token.content = (t.closing file).map Token.content := by
    rw [closing, closing, lineOpen_congr h.emitted, h.indents]
    cases t.lineOpen <;> simp [endMark, Token.content]
  rw [emitted_finish, emitted_finish, List.map_append, List.map_append, List.map_reverse,
    List.map_reverse, h.emitted, hclosing]

end Abreast
end Scan
end SlotTree

import SlotTree.Proofs.Reading.Accepted
import SlotTree.Proofs.Reading.Relocate

/-!
# Scripts one after the other are read as one

If two scripts are read, then the one with a line feed between them is read too, and its
statements are those of the first and those of the second.

Of the first script this needs that it leaves no bracket and no block open, which the scanner would
carry over the line feed.  A statement leaves none: its tokens stand on one line and close what they
open (`OnLine`), and no rule of the grammar has a block.  The lines of the first script end with a
newline, and the grammar allows more statements behind one (`DerivesScript.append`).  The tokens of
the second are moved, and so is what they denote (`DerivesScript.relocate`).
-/

namespace SlotTree

open Text (byteLength)

/-! ## Statements stand on one line -/

/-- The kind neither is one of the layout nor opens or closes a bracket. -/
def TokenKind.isInline (kind : TokenKind) : Bool :=
  !kind.isLayout && !kind.isOpening && !kind.isClosing

/-- The tokens stand on one line and close the brackets that they open. -/
structure OnLine (ts : List Token) : Prop where
  kinds : ∀ t ∈ ts, t.kind.isLayout = false
  balanced : ∀ depth, depthThrough (ts.map Token.bare) depth = depth

namespace OnLine

variable {ts us : List Token} {t opening closing : Token}

theorem nil : OnLine [] := ⟨by simp, fun _ => rfl⟩

theorem append (h : OnLine ts) (h' : OnLine us) : OnLine (ts ++ us) where
  kinds u hu := (List.mem_append.mp hu).elim (h.kinds u) (h'.kinds u)
  balanced depth := by
    rw [List.map_append, depthThrough_append, h.balanced, h'.balanced]

theorem cons (ht : t.kind.isInline = true) (h : OnLine ts) : OnLine (t :: ts) := by
  simp only [TokenKind.isInline, Bool.and_eq_true, Bool.not_eq_true'] at ht
  obtain ⟨⟨hlayout, hopening⟩, hclosing⟩ := ht
  refine ⟨?_, fun depth => ?_⟩
  · rintro u (_ | ⟨_, hu⟩)
    · exact hlayout
    · exact h.kinds u hu
  · have hdepth : t.bare.1.depthAfter depth = depth := by
      simp [Token.bare, TokenKind.depthAfter, hopening, hclosing]
    rw [List.map_cons, depthThrough_cons, hdepth, h.balanced]

theorem of_inline (h : ∀ t ∈ ts, t.kind.isInline = true) : OnLine ts := by
  induction ts with
  | nil => exact .nil
  | cons t ts ih =>
    exact .cons (h t List.mem_cons_self) (ih fun u hu => h u (List.mem_cons_of_mem t hu))

/-- Brackets around tokens on one line. -/
theorem bracketed (h : OnLine ts)
    (hopening : opening.kind = .openParen ∨ opening.kind = .openBracket)
    (hclosing : closing.kind = .closeParen ∨ closing.kind = .closeBracket) :
    OnLine (opening :: (ts ++ [closing])) := by
  refine ⟨fun u hu => ?_, fun depth => ?_⟩
  · simp only [List.mem_cons, List.mem_append, List.not_mem_nil, or_false] at hu
    rcases hu with rfl | hu | rfl
    · rcases hopening with hkind | hkind <;> rw [hkind] <;> rfl
    · exact h.kinds u hu
    · rcases hclosing with hkind | hkind <;> rw [hkind] <;> rfl
  · have hopen : opening.bare.1.depthAfter depth = depth + 1 := by
      rcases hopening with hkind | hkind <;> simp only [Token.bare, hkind] <;> rfl
    have hclose : closing.bare.1.depthAfter (depth + 1) = depth := by
      rcases hclosing with hkind | hkind <;> simp only [Token.bare, hkind] <;> rfl
    rw [List.map_cons, depthThrough_cons, hopen, List.map_append, depthThrough_append, h.balanced,
      List.map_singleton, depthThrough_cons, hclose, depthThrough_nil]

end OnLine

namespace Reading

theorem DerivesType.onLine {ts : List Token} {type : Ty} (h : DerivesType ts type) : OnLine ts := by
  induction h with
  | symbol kind _ _ => exact .cons (by rw [kind]; rfl) .nil
  | noneType kind => exact .cons (by rw [kind]; rfl) .nil
  | subscript _ _ openKind _ closeKind ih₁ ih₂ =>
    exact ih₁.append (ih₂.bracketed (Or.inr openKind) (Or.inr closeKind))

theorem Constant.isInline {t : Token} {v : Literal} (h : Constant t v) :
    t.kind.isInline = true := by
  cases h with
  | true_ kind | false_ kind | none_ kind => rw [kind]; rfl
  | number kind _ => rw [kind]; rfl

theorem Derives.onLine {ts : List Token} {p : Phrase} (h : Derives ts p) : OnLine ts := by
  induction h with
  | constant value => exact .cons value.isInline .nil
  | text kinds => exact .of_inline fun u hu => by rw [kinds u hu]; rfl
  | name kind => exact .cons (by rw [kind]; rfl) .nil
  | group openKind _ closeKind ih => exact ih.bracketed (Or.inl openKind) (Or.inl closeKind)
  | call _ openKind _ closeKind _ _ ih₁ ih₂ =>
    exact ih₁.append (ih₂.bracketed (Or.inl openKind) (Or.inl closeKind))
  | positional _ ih => exact ih
  | keyword kind equalsKind _ ih =>
    exact .cons (by rw [kind]; rfl) (.cons (by rw [equalsKind]; rfl) ih)
  | noArguments => exact .nil
  | lastArgument _ ih => exact ih
  | moreArguments _ commaKind _ ih₁ ih₂ => exact ih₁.append (.cons (by rw [commaKind]; rfl) ih₂)

theorem DerivesStmt.onLine {ts : List Token} {s : Stmt} (h : DerivesStmt ts s) : OnLine ts := by
  cases h with
  | expression value _ => exact value.onLine
  | declaration kind colonKind declared =>
    exact .cons (by rw [kind]; rfl) (.cons (by rw [colonKind]; rfl) declared.onLine)
  | definition kind colonKind declared equalsKind value _ =>
    have hvalue := OnLine.cons (by rw [equalsKind]; rfl) value.onLine
    exact .cons (by rw [kind]; rfl) (.cons (by rw [colonKind]; rfl) (declared.onLine.append hvalue))

end Reading

/-! ## Scripts are level -/

/-- The tokens close no block, and they close the brackets that they open. -/
structure Level (ts : List Token) : Prop where
  flat : ∀ t ∈ ts, t.kind ≠ .dedent
  balanced : ∀ depth, depthThrough (ts.map Token.bare) depth = depth

theorem OnLine.level {ts : List Token} (h : OnLine ts) : Level ts where
  flat t ht hkind := by
    have hlayout := h.kinds t ht
    rw [hkind] at hlayout
    cases hlayout
  balanced := h.balanced

theorem Level.append {ts us : List Token} (h : Level ts) (h' : Level us) : Level (ts ++ us) where
  flat u hu := (List.mem_append.mp hu).elim (h.flat u) (h'.flat u)
  balanced depth := by
    rw [List.map_append, depthThrough_append, h.balanced, h'.balanced]

namespace Reading

theorem LineEnd.level {es : List Token} (h : LineEnd es) : Level es := by
  have hnewline : ∀ depth, TokenKind.newline.depthAfter depth = depth := fun _ => rfl
  have hsemicolon : ∀ depth, TokenKind.semicolon.depthAfter depth = depth := fun _ => rfl
  cases h with
  | newline kind => exact ⟨by simp [kind], by simp [Token.bare, kind, hnewline]⟩
  | semicolon kind => exact ⟨by simp [kind], by simp [Token.bare, kind, hsemicolon]⟩
  | semicolonNewline kind kind' =>
    exact ⟨by simp [kind, kind'], by simp [Token.bare, kind, kind', hnewline, hsemicolon]⟩

theorem DerivesScript.level {ts : List Token} {body : List Stmt} (h : DerivesScript ts body) :
    Level ts := by
  induction h with
  | nil => exact OnLine.nil.level
  | last stmt => exact stmt.onLine.level
  | cons stmt ends _ ih => exact stmt.onLine.level.append (ends.level.append ih)

/-! ## Statements behind a line -/

theorem DerivesStmt.ne_nil {ts : List Token} {s : Stmt} (h : DerivesStmt ts s) : ts ≠ [] := by
  obtain ⟨t, us, rfl, -⟩ := h.opens
  exact List.cons_ne_nil t us

/-- Without tokens there are no statements. -/
theorem DerivesScript.eq_nil {body : List Stmt} (h : DerivesScript [] body) : body = [] := by
  generalize hts : ([] : List Token) = ts at h
  cases h with
  | nil => rfl
  | last stmt => exact absurd hts.symm stmt.ne_nil
  | cons stmt _ _ => exact absurd (List.append_eq_nil_iff.mp hts.symm).1 stmt.ne_nil

/-- **More statements may stand behind a line**, whichever newline ends it. -/
theorem DerivesScript.append {line us : List Token} {newline newline' : Token}
    {body body' : List Stmt} (h : DerivesScript (line ++ [newline]) body)
    (hkind : newline.kind = .newline) (hkind' : newline'.kind = .newline)
    (hus : DerivesScript us body') :
    DerivesScript (line ++ newline' :: us) (body ++ body') := by
  generalize hline : line ++ [newline] = ts at h
  induction h generalizing line with
  | nil => simp at hline
  | last stmt =>
    -- a statement has no newline
    have hlayout := stmt.onLine.kinds newline (by simp [← hline])
    rw [hkind] at hlayout
    cases hlayout
  | @cons ts es vs s ss stmt ends rest ih =>
    rcases List.eq_nil_or_concat vs with rfl | ⟨vs, last, rfl⟩
    · -- the newline is the one that ends the last statement
      obtain rfl := rest.eq_nil
      rw [List.append_nil] at hline
      cases ends with
      | newline _ =>
        obtain ⟨rfl, -⟩ := List.append_inj' hline rfl
        exact .cons stmt (.newline hkind') hus
      | semicolon kind =>
        obtain ⟨-, heq⟩ := List.append_inj' hline rfl
        obtain rfl := List.singleton_inj.mp heq
        rw [kind] at hkind
        cases hkind
      | @semicolonNewline t u kind _ =>
        have hsplit : line ++ [newline] = (ts ++ [t]) ++ [u] := by
          rw [hline, List.append_assoc]
          rfl
        obtain ⟨rfl, -⟩ := List.append_inj' hsplit rfl
        have hscript := DerivesScript.cons stmt (.semicolonNewline kind hkind') hus
        rw [List.append_assoc]
        exact hscript
    · have hsplit : line ++ [newline] = (ts ++ (es ++ vs)) ++ [last] := by
        rw [hline, List.concat_eq_append]
        simp only [List.append_assoc]
      obtain ⟨rfl, heq⟩ := List.append_inj' hsplit rfl
      obtain rfl := List.singleton_inj.mp heq
      rw [List.append_assoc, List.append_assoc]
      exact .cons stmt ends (ih List.concat_eq_append.symm)

/-! ## Sources -/

/-- Of the tokens of a source the last says that it ends, and no other does. -/
theorem exists_eq_concat_of_tokenize {source file : String} {tokens : List Token}
    (h : tokenize source file = .ok tokens) :
    ∃ ts last, tokens = ts ++ [last] ∧ last.kind = .eof ∧ ∀ t ∈ ts, t.kind ≠ .eof := by
  obtain ⟨s, hrun, rfl⟩ := tokenize_eq_ok_iff.mp h
  have hlaid := ((Scan.LaidOut.ofText source.toList).run hrun).laid_closedKinds
  obtain ⟨ts, ends, htokens, hkinds, hend⟩ := List.map_eq_append_iff.mp (s.kinds_finish file)
  obtain ⟨last, rfl, hlast⟩ := List.map_eq_singleton_iff.mp hend
  refine ⟨ts, last, htokens, hlast, fun t ht => ?_⟩
  have hmem : t.kind ∈ s.closedKinds := by
    rw [← List.mem_reverse, ← hkinds]
    exact List.mem_map_of_mem ht
  obtain ⟨later, earlier, hsplit⟩ := List.append_of_mem hmem
  rw [hsplit] at hlaid
  obtain ⟨blocks, hearlier⟩ := hlaid.of_append
  exact hearlier.ne_eof

/-- A source is read exactly if its tokens before the last are a script. -/
theorem readSource_eq_ok_iff {source file : String} {b : Block} :
    readSource source file = .ok b ↔
      ∃ ts last, tokenize source file = .ok (ts ++ [last]) ∧ last.kind = .eof ∧
        DerivesScript ts b.body ∧ b.span = ⟨⟨0, file⟩, last.span.start⟩ := by
  have hends : ∀ last : Token, last.kind = .eof → EndsScript [last] := by
    intro last hlast t ht
    obtain rfl := Option.some.inj ht
    exact hlast
  constructor
  · intro h
    unfold readSource at h
    split at h
    · next tokens htokens =>
      obtain ⟨ts, last, rfl, hlast, hts⟩ := exists_eq_concat_of_tokenize htokens
      obtain ⟨hscript, hspan⟩ := readTokens_eq_ok_iff.mp h
      rw [beforeEnd_append hts (hends last hlast)] at hscript
      rw [endPosition_append hts hlast] at hspan
      exact ⟨ts, last, htokens, hlast, hscript, hspan⟩
    · cases h
  · rintro ⟨ts, last, htokens, hlast, hscript, hspan⟩
    rw [readSource, htokens]
    refine readTokens_eq_ok_iff.mpr ⟨?_, ?_⟩
    · rwa [beforeEnd_append hscript.kind_ne_eof (hends last hlast)]
    · rwa [endPosition_append hscript.kind_ne_eof hlast]

/-- What becomes of the first script in front of the second: its lines are a script with the same
statements, and the statements of the second may follow. -/
theorem DerivesScript.append_of_sameLines {ts us lines : List Token} {last : Token}
    {body body' : List Stmt} (h : DerivesScript ts body) (hlines : SameLines (ts ++ [last]) lines)
    (hus : DerivesScript us body') : DerivesScript (lines ++ us) (body ++ body') := by
  rcases hlines with
    ⟨last', hts, -, rfl⟩ | ⟨line, newline, newline', last', hts, rfl, hkind, hkind', -⟩
  · obtain ⟨rfl, -⟩ := List.append_inj' (hts.trans (List.nil_append [last']).symm) rfl
    obtain rfl := h.eq_nil
    exact hus
  · have hsplit : ts ++ [last] = (line ++ [newline]) ++ [last'] := by
      rw [hts, List.append_assoc]
      rfl
    obtain ⟨rfl, -⟩ := List.append_inj' hsplit rfl
    rw [List.append_assoc]
    exact h.append hkind hkind' hus

/-- **Reading is compositional over lines.**  If two sources are read, so is the one with a line
feed between them.  Its statements are those of the first and those of the second, moved behind the
first and the line feed, and up to spans they are the same. -/
theorem readSource_append {a b file : String} {first second : Block}
    (ha : readSource a file = .ok first) (hb : readSource b file = .ok second) :
    ∃ whole, readSource (a ++ "\n" ++ b) file = .ok whole ∧
      whole.body =
        first.body ++ second.body.map (Stmt.relocate (.shift (byteLength a.toList + 1))) ∧
      whole.span = ⟨first.span.start, second.span.stop.shift (byteLength a.toList + 1)⟩ ∧
      eraseStmts whole.body = eraseStmts (first.body ++ second.body) := by
  obtain ⟨ts, last, hta, hlast, hfirst, hspan⟩ := readSource_eq_ok_iff.mp ha
  obtain ⟨us, last', htb, hlast', hsecond, hspan'⟩ := readSource_eq_ok_iff.mp hb
  have hlevel : Level (ts ++ [last]) := by
    refine hfirst.level.append ⟨by simp [hlast], fun depth => ?_⟩
    rw [List.map_singleton, depthThrough_cons, depthThrough_nil]
    exact TokenKind.depthAfter_layout (by rw [Token.bare, hlast]; rfl) depth
  obtain ⟨lines, hlines, htokens⟩ := tokenize_seam hta htb (hlevel.balanced 0) hlevel.flat
  set place := Position.shift (byteLength a.toList + 1)
  have hscript : DerivesScript (lines ++ us.map (Token.relocate place))
      (first.body ++ second.body.map (Stmt.relocate place)) :=
    hfirst.append_of_sameLines hlines (hsecond.relocate place)
  refine ⟨⟨_, _⟩, readSource_eq_ok_iff.mpr ⟨_, last'.relocate place, ?_, hlast', hscript, rfl⟩, rfl,
    ?_, ?_⟩
  · rw [htokens, List.map_append, List.append_assoc]
    rfl
  · rw [hspan, hspan']
    rfl
  · simp only [eraseStmts_eq_map, List.map_append, List.map_map, Function.comp_def,
      Stmt.eraseSpans_relocate]

/-- A line that ends with a semicolon and a comment, without a line feed. -/
def commentedScript : String := "x: int = 1;  # ü"

/-- An empty line, a call over two lines and a declaration. -/
def foldedScript : String := "\nprint(\n  x, end='')\ny: str"

theorem readSource_append_commented :
    ∃ first second whole, readSource commentedScript "main.py" = .ok first ∧
      readSource foldedScript "main.py" = .ok second ∧
      first.body.length = 1 ∧ second.body.length = 2 ∧
      readSource (commentedScript ++ "\n" ++ foldedScript) "main.py" = .ok whole ∧
      whole.body = first.body ++ second.body.map (Stmt.relocate (.shift 18)) := by
  have hfirst : ((readSource commentedScript "main.py").toOption.map fun b => b.body.length) =
      some 1 := by
    decide +kernel
  have hsecond : ((readSource foldedScript "main.py").toOption.map fun b => b.body.length) =
      some 2 := by
    decide +kernel
  obtain ⟨first, hread, hlength⟩ := Option.map_eq_some_iff.mp hfirst
  obtain ⟨second, hread', hlength'⟩ := Option.map_eq_some_iff.mp hsecond
  obtain ⟨whole, hwhole, hbody, -, -⟩ :=
    readSource_append (toOption_eq_some_iff.mp hread) (toOption_eq_some_iff.mp hread')
  exact ⟨first, second, whole, toOption_eq_some_iff.mp hread, toOption_eq_some_iff.mp hread',
    hlength, hlength', hwhole, hbody⟩

end Reading
end SlotTree

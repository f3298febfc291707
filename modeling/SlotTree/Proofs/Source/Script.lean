import SlotTree.Proofs.Reading.Accepted
import SlotTree.Proofs.Source.Written
import SlotTree.Proofs.Token.Lines

/-!
# Whole scripts are read back

From expressions to scripts.  The types that can be declared are written as annotations
that denote them, a settled statement is written on one line, and the lines of a script
stand below each other, possibly with empty lines between them (`Lines`).  In either layout
the tokens of such a text are those of its statements, each with a line end, so reading
the text gives the statements back, up to spans (`Lines.read`).
-/

namespace SlotTree

open Reading (DerivesScript DerivesStmt DerivesType LineEnd readSource)

/-! ## Annotations -/

/-- What the tokens of a type say, where it is written in an annotation. -/
def Ty.words : Ty → List Bare
  | .list item =>
    [(.identifier, "list")] ++ ([(.openBracket, "[")] ++ (item.words ++ [(.closeBracket, "]")]))
  | .plain .noneType => [(.reserved .none_, "None")]
  | t => [(.identifier, t.written?.getD "")]

/-- The type is written as the text, and tokens that say what the text says denote it. -/
structure TypeWrittenAs (t : Ty) (cs : List Char) (bs : List Bare) : Prop where
  renders : t.written? = some (String.ofList cs)
  fragment : Fragment cs bs
  reads : ∀ ts, ts.map Token.bare = bs → DerivesType ts t

theorem TypeWrittenAs.render_type {t : Ty} {cs : List Char} {bs : List Bare}
    (h : TypeWrittenAs t cs bs) (span : Span) :
    (Expr.type t span).render = .ok (String.ofList cs) := by
  rw [Expr.render, Source.typeText, h.renders]

/-- A type that a bare name stands for. -/
theorem written_symbol {c : Class} {name : String} (hname : IsName name)
    (hbuiltin : Registry.default.find? name = some (Registry.typeConstructor c))
    (hwritten : (Ty.wrap c).written? = some name) :
    TypeWrittenAs (Ty.wrap c) name.toList [(.identifier, name)] := by
  refine ⟨by rwa [String.ofList_toList], hname.fragment, fun ts hts => ?_⟩
  obtain ⟨t, rfl, ht⟩ := exists_eq_singleton hts
  have htext := Token.text_of_bare ht (by decide)
  exact .symbol (Token.kind_of_bare ht) (by rw [htext, hbuiltin]) rfl

theorem written_noneType :
    TypeWrittenAs (.plain .noneType) "None".toList [(.reserved .none_, "None")] := by
  have hword : Lexeme.IsWord "None".toList := by decide
  have hfragment := Fragment.name hword
  refine ⟨rfl, hfragment, fun ts hts => ?_⟩
  obtain ⟨t, rfl, ht⟩ := exists_eq_singleton hts
  exact .noneType (Token.kind_of_bare ht)

/-- A type that can be declared is written as an annotation that denotes it. -/
theorem Ty.Declarable.written {t : Ty} (h : t.Declarable) : ∃ cs, TypeWrittenAs t cs t.words := by
  induction h with
  | plain listed =>
    simp only [List.mem_cons, List.not_mem_nil, or_false] at listed
    rcases listed with rfl | rfl | rfl | rfl | rfl | rfl
    · exact ⟨_, written_symbol (c := .object) (by decide) rfl rfl⟩
    · exact ⟨_, written_symbol (c := .bool) (by decide) rfl rfl⟩
    · exact ⟨_, written_noneType⟩
    · exact ⟨_, written_symbol (c := .int) (by decide) rfl rfl⟩
    · exact ⟨_, written_symbol (c := .float) (by decide) rfl rfl⟩
    · exact ⟨_, written_symbol (c := .str) (by decide) rfl rfl⟩
  | @list item _ ih =>
    obtain ⟨cs, h⟩ := ih
    have hlist : IsName "list" := by decide
    have hfragment := hlist.fragment.enclosed '[' ']' .openBracket .closeBracket
      (Or.inr h.fragment) (by decide) (by decide) rfl (by decide)
    refine ⟨_, ?_, hfragment, fun ts hts => ?_⟩
    · rw [Ty.written?, h.renders, Option.map_some]
      congr 1
      apply String.toList_injective
      simp
    · obtain ⟨ts₁, opening, ts₂, closing, rfl, hts₁, hopening, hts₂, hclosing⟩ :=
        exists_eq_enclosed hts
      obtain ⟨t, rfl, ht⟩ := exists_eq_singleton hts₁
      have htext := Token.text_of_bare ht (by decide)
      have hbuiltin : Registry.default.find? "list" = some (Registry.typeConstructor .list) := rfl
      exact .subscript (.symbol (Token.kind_of_bare ht) (by rw [htext, hbuiltin]) rfl) rfl
        (Token.kind_of_bare hopening) (h.reads ts₂ hts₂) (Token.kind_of_bare hclosing)

/-! ## Statements -/

/-- The statement is written as the text, and tokens that say what the text says denote
it. -/
structure StmtWrittenAs (s : Stmt) (cs : List Char) (bs : List Bare) : Prop where
  renders : s.render 0 = .ok (String.ofList cs)
  fragment : Fragment cs bs
  reads : ∀ ts, ts.map Token.bare = bs → ∃ s', DerivesStmt ts s' ∧ s'.eraseSpans = s.eraseSpans

theorem DerivesType.exists_eq_cons {ts : List Token} {t : Ty} (h : DerivesType ts t) :
    ∃ first more, ts = first :: more := by
  induction h with
  | symbol | noneType => exact ⟨_, _, rfl⟩
  | subscript _ _ _ _ _ ih _ =>
    obtain ⟨first, more, rfl⟩ := ih
    exact ⟨first, _, rfl⟩

theorem margin_zero (text : String) : Source.margin 0 ++ text = text := by
  apply String.toList_injective
  simp [Source.margin]

/-- **Every settled statement is written on a line and read back.** -/
theorem SettledStmt.written {s : Stmt} (h : SettledStmt s) : ∃ cs bs, StmtWrittenAs s cs bs := by
  cases h with
  | @expression e span value =>
    obtain ⟨cs, bs, h⟩ := value.written
    refine ⟨cs, bs, ?_, h.fragment, fun ts hts => ?_⟩
    · have hrender : (Stmt.expression (.holding (.plain .object) e) span).render 0 =
          e.render.bind fun text => .ok (Source.margin 0 ++ text) := rfl
      rw [hrender, h.renders]
      exact congrArg Except.ok (margin_zero _)
    · obtain ⟨e', he', herase⟩ := h.reads ts hts
      have hfits : e'.valueType.fits (.plain .object) = true := by
        rw [Expr.valueType_of_eraseSpans herase]
        exact value.fits_object
      refine ⟨_, .expression he' hfits, ?_⟩
      simp only [Stmt.eraseSpans, Slot.eraseSpans_holding, herase]
  | @declaration id t at_ span isName type =>
    obtain ⟨cs, h⟩ := type.written
    refine ⟨_, _, ?_, isName.fragment.annotated h.fragment, fun ts hts => ?_⟩
    · have hrender :
          (Stmt.declaration (.ofLiteral (.str id)) (Stmt.typeSlot t at_ none) span).render 0 =
            (Expr.type t at_).render.bind fun text =>
            .ok (Source.margin 0 ++ id ++ ": " ++ text) := rfl
      rw [hrender, h.render_type, margin_zero]
      refine congrArg Except.ok (String.toList_injective ?_)
      simp
    · obtain ⟨ts₁, colon, ts₂, rfl, hts₁, hcolon, hts₂⟩ := exists_eq_glued hts
      obtain ⟨target, rfl, htarget⟩ := exists_eq_singleton hts₁
      have hderives := h.reads ts₂ hts₂
      obtain ⟨first, more, rfl⟩ := DerivesType.exists_eq_cons hderives
      refine ⟨_, .declaration (Token.kind_of_bare htarget) (Token.kind_of_bare hcolon) hderives, ?_⟩
      rw [Token.text_of_bare htarget (by decide)]
      rfl
  | @definition id t at_ span e isName type value fits =>
    obtain ⟨cs, h⟩ := type.written
    obtain ⟨ds, us, h'⟩ := value.written
    refine ⟨_, _, ?_, (isName.fragment.annotated h.fragment).defined h'.fragment, fun ts hts => ?_⟩
    · have hrender : (Stmt.definition (.ofLiteral (.str id))
            (Stmt.typeSlot t at_ (some (.holding t e))) span).render 0 =
          (Expr.type t at_).render.bind fun declared => e.render.bind fun text =>
            .ok (Source.margin 0 ++ id ++ ": " ++ declared ++ " = " ++ text) := rfl
      rw [hrender, h.render_type, h'.renders, margin_zero]
      refine congrArg Except.ok (String.toList_injective ?_)
      simp
    · obtain ⟨ts₁, equals, ts₃, rfl, hts₁, hequals, hts₃⟩ := exists_eq_glued hts
      obtain ⟨ts₀, colon, ts₂, rfl, hts₀, hcolon, hts₂⟩ := exists_eq_glued hts₁
      obtain ⟨target, rfl, htarget⟩ := exists_eq_singleton hts₀
      have hderives := h.reads ts₂ hts₂
      obtain ⟨first, more, rfl⟩ := DerivesType.exists_eq_cons hderives
      obtain ⟨e', he', herase⟩ := h'.reads ts₃ hts₃
      have hfits : e'.valueType.fits t = true := by rwa [Expr.valueType_of_eraseSpans herase]
      have hstmt := DerivesStmt.definition (Token.kind_of_bare htarget) (Token.kind_of_bare hcolon)
        hderives (Token.kind_of_bare hequals) he' hfits
      refine ⟨_, by simpa using hstmt, ?_⟩
      rw [Token.text_of_bare htarget (by decide)]
      simp only [Stmt.eraseSpans, Stmt.typeSlot, Slot.eraseSpans, eraseContent, eraseOwned,
        Expr.eraseSpans, Slot.eraseSpans_holding, herase]

/-! ## Scripts -/

/-- The lines of a script: each is empty, or a statement is written on it. -/
inductive Lines : List (List Char × List Bare) → List Stmt → Prop where
  | nil : Lines [] []
  | blank {rows : List (List Char × List Bare)} {ss : List Stmt} (rest : Lines rows ss) :
      Lines (([], []) :: rows) ss
  | line {cs : List Char} {bs : List Bare} {rows : List (List Char × List Bare)} {s : Stmt}
      {ss : List Stmt} (stmt : StmtWrittenAs s cs bs) (rest : Lines rows ss) :
      Lines ((cs, bs) :: rows) (s :: ss)

namespace Lines

theorem inner {rows : List (List Char × List Bare)} {ss : List Stmt} (h : Lines rows ss) :
    ∀ r ∈ rows, Fragment.Inner r.1 r.2 := by
  induction h with
  | nil => simp
  | blank _ ih =>
    intro r hr
    rcases List.mem_cons.mp hr with rfl | hr
    · exact Or.inl ⟨rfl, rfl⟩
    · exact ih r hr
  | line stmt _ ih =>
    intro r hr
    rcases List.mem_cons.mp hr with rfl | hr
    · exact Or.inr stmt.fragment
    · exact ih r hr

theorem append {rows rows' : List (List Char × List Bare)} {ss ss' : List Stmt}
    (h : Lines rows ss) (h' : Lines rows' ss') : Lines (rows ++ rows') (ss ++ ss') := by
  induction h with
  | nil => exact h'
  | blank _ ih => exact .blank ih
  | line stmt _ ih => exact .line stmt ih

/-- Tokens that say what the lines say are a script with their statements. -/
theorem derives {rows : List (List Char × List Bare)} {ss : List Stmt} (h : Lines rows ss) :
    ∀ ts, ts.map Token.bare = (rows.flatMap fun r => lineTokens r.2) →
      ∃ ss', DerivesScript ts ss' ∧ ss'.map Stmt.eraseSpans = ss.map Stmt.eraseSpans := by
  induction h with
  | nil =>
    intro ts hts
    obtain rfl : ts = [] := by simpa using hts
    exact ⟨[], .nil, rfl⟩
  | blank _ ih =>
    intro ts hts
    exact ih ts (by simpa [lineTokens] using hts)
  | @line cs bs rows s ss stmt _ ih =>
    intro ts hts
    rw [List.flatMap_cons, lineTokens, if_neg stmt.fragment.nonempty, List.append_assoc] at hts
    obtain ⟨ts₁, newline, ts₂, rfl, hts₁, hnewline, hts₂⟩ := exists_eq_glued hts
    obtain ⟨s', hs', herase⟩ := stmt.reads ts₁ hts₁
    obtain ⟨ss', hss', herases⟩ := ih ts₂ hts₂
    exact ⟨s' :: ss', .cons hs' (.newline (Token.kind_of_bare hnewline)) hss',
      by rw [List.map_cons, List.map_cons, herase, herases]⟩

/-- **The lines of a script are read as their statements**, up to spans, in either
layout. -/
theorem read {rows : List (List Char × List Bare)} {ss : List Stmt} (h : Lines rows ss)
    (layout : Bool) (file : String) :
    ∃ b, readSource (layOut rows layout) file = .ok b ∧
      b.body.map Stmt.eraseSpans = ss.map Stmt.eraseSpans := by
  obtain ⟨tokens, htokens, hbare⟩ := tokenize_layOut h.inner layout file
  obtain ⟨ts, last, rfl, hts, hlast⟩ := List.map_eq_append_iff.mp hbare
  obtain ⟨t, rfl, ht⟩ := exists_eq_singleton hlast
  obtain ⟨ss', hss', herase⟩ := h.derives ts hts
  have hends : Reading.EndsScript [t] := by
    intro u hu
    obtain rfl : t = u := by simpa using hu
    exact Token.kind_of_bare ht
  refine ⟨⟨ss', ⟨⟨0, file⟩, Reading.endPosition (ts ++ [t]) file⟩⟩, ?_, herase⟩
  rw [readSource, htokens]
  refine Reading.readTokens_eq_ok_iff.mpr ⟨?_, rfl⟩
  rwa [Reading.beforeEnd_append hss'.kind_ne_eof hends]

end Lines

/-- The source text of a block in either layout, from the texts of its statements. -/
theorem Block.render_of_renderStmts {b : Block} {rows : List (List Char × List Bare)}
    {texts : List String} (h : renderStmts 0 b.body = .ok texts)
    (hrows : "\n".intercalate texts = layOut rows false) (layout : Bool) :
    b.render 0 layout = .ok (layOut rows layout) := by
  obtain ⟨body, span⟩ := b
  have hstmt : (Stmt.block ⟨body, span⟩).render 0 = .ok (layOut rows false) := by
    rw [Stmt.render, h, ← hrows]
    rfl
  rw [Block.render, Node.render, hstmt]
  cases layout <;> rfl

/-! ## Scripts of one line -/

theorem forall_inner_singleton {cs : List Char} {bs : List Bare} (h : Fragment cs bs) :
    ∀ r ∈ [(cs, bs)], Fragment.Inner r.1 r.2 := by
  intro r hr
  obtain rfl := List.mem_singleton.mp hr
  exact Or.inr h

/-- A text of one line is laid out with or without a line feed behind it. -/
theorem layOut_singleton {cs : List Char} {bs : List Bare} (h : Fragment cs bs) (layout : Bool) :
    layOut [(cs, bs)] layout = String.ofList cs ++ if layout then "\n" else "" := by
  have hformat := Source.formatChars_lines (forall_inner_singleton h)
  simp only [List.map_cons, List.map_nil, List.intercalate_singleton] at hformat
  have hne : cs.isEmpty = false := by simpa using h.ne_nil
  apply String.toList_injective
  cases layout with
  | false => simp [layOut]
  | true =>
    simp [layOut, Source.format, hformat, List.rdropWhile_singleton, hne, Source.endLines]

theorem opens_layOut {cs : List Char} {bs : List Bare} (h : Fragment cs bs) (layout : Bool) :
    Opens (layOut [(cs, bs)] layout).toList := by
  rw [layOut_singleton h layout, String.toList_append, String.toList_ofList]
  exact h.opens.append _

/-- The tokens of a text of one line. -/
theorem tokenize_line {cs : List Char} {bs : List Bare} (h : Fragment cs bs) (layout : Bool)
    (file : String) :
    ∃ ts newline last, tokenize (layOut [(cs, bs)] layout) file = .ok (ts ++ [newline] ++ [last]) ∧
      ts.map Token.bare = bs ∧ newline.kind = .newline ∧ last.kind = .eof := by
  obtain ⟨tokens, htokens, hbare⟩ := tokenize_layOut (forall_inner_singleton h) layout file
  rw [List.flatMap_singleton, lineTokens, if_neg h.nonempty, List.append_assoc] at hbare
  obtain ⟨ts, newline, ends, rfl, hts, hnewline, hends⟩ := exists_eq_glued hbare
  obtain ⟨last, rfl, hlast⟩ := exists_eq_singleton hends
  exact ⟨ts, newline, last, by simpa using htokens, hts, Token.kind_of_bare hnewline,
    Token.kind_of_bare hlast⟩

end SlotTree

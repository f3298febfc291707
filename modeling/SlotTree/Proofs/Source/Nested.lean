import SlotTree.Proofs.Source.Presentable
import SlotTree.Proofs.Source.RoundTrip

/-!
# Nested blocks are read flat

Blocks nest in a tree, but not in the source language: the statements of an inner block
stand on the lines where the inner block stands, at the same level, and an inner block
without statements is an empty line.  So what can be read back from the text of a block is
not how it is nested but its leaves, in order.

The induction runs over the tree.  A statement has at least one line, even if it is an
empty block (`Stmt.exists_shown`), which is why the lines of the statements of a block are
the lines between which its text puts line feeds (`exists_shown_body`).
-/

namespace SlotTree

open Reading (readSource settled_of_readSource shellName)

/-! ## Leaves -/

mutual

/-- The statements at the bottom of a tree of blocks, in order. -/
def Stmt.leaves : Stmt → List Stmt
  | .block ⟨body, _⟩ => bodyLeaves body
  | .expression value span => [.expression value span]
  | .declaration id type span => [.declaration id type span]
  | .definition id type span => [.definition id type span]

/-- The leaves below the statements of a block. -/
def bodyLeaves : List Stmt → List Stmt
  | [] => []
  | s :: ss => s.leaves ++ bodyLeaves ss

end

/-- The leaves of a block. -/
def Block.leaves (b : Block) : List Stmt := bodyLeaves b.body

/-- Settled statements are leaves themselves. -/
theorem bodyLeaves_of_settled {ss : List Stmt} (h : ∀ s ∈ ss, SettledStmt s) :
    bodyLeaves ss = ss := by
  induction ss with
  | nil => rfl
  | cons s ss ih =>
    have hs : s.leaves = [s] := by cases h s List.mem_cons_self <;> rfl
    rw [bodyLeaves, hs, ih fun s' hs' => h s' (List.mem_cons_of_mem s hs'), List.singleton_append]

/-! ## Statements -/

/-- A statement that shows nothing but what can be written. -/
inductive PresentableStmt : Stmt → Prop where
  | expression {value : Slot} {span : Span} {e : Expr} (holds : value.expr? = some e)
      (shown : Presentable e) : PresentableStmt (.expression value span)
  | declaration {slot type : Slot} {span at_ : Span} {id : String} {t : Ty}
      (names : slot.literal? = some (.str id)) (isName : IsName id)
      (declares : type.expr? = some (.type t at_)) (declarable : t.Declarable) :
      PresentableStmt (.declaration slot type span)
  | definition {slot type : Slot} {span at_ : Span} {id : String} {t : Ty} {e : Expr}
      (names : slot.literal? = some (.str id)) (isName : IsName id)
      (declares : type.expr? = some (.type t at_)) (declarable : t.Declarable)
      (holds : type.constraint.bind Slot.expr? = some e) (shown : Presentable e)
      (fits : e.valueType.fits t = true) : PresentableStmt (.definition slot type span)

theorem PresentableStmt.leaves {s : Stmt} (h : PresentableStmt s) : s.leaves = [s] := by
  cases h <;> rfl

/-- A statement that the constructors build, from expressions that they and the binder build. -/
inductive BuiltStmt : Stmt → Prop where
  | expression {e : Expr} {span : Span} {s : Stmt} (value : Built e)
      (makes : Stmt.ofExpr e span = .ok s) : BuiltStmt s
  | declaration {id : String} {t : Ty} {span at_ : Span} {s : Stmt}
      {outcome : Except Fault (Option Expr)} (isName : IsName id) (declarable : t.Declarable)
      (declares : (Stmt.declare id span).setType? t at_ = some (outcome, s)) : BuiltStmt s
  | definition {id : String} {t : Ty} {span at_ : Span} {s s' : Stmt} {e : Expr} {u : Unit}
      {outcome : Except Fault (Option Expr)} (isName : IsName id) (declarable : t.Declarable)
      (value : Built e) (declares : (Stmt.define id span).setType? t at_ = some (outcome, s))
      (defines : s.setValue? e = some (.ok u, s')) : BuiltStmt s'

/-- **The statements that the constructors build are presentable.** -/
theorem BuiltStmt.presentable {s : Stmt} (h : BuiltStmt s) : PresentableStmt s := by
  cases h with
  | expression value makes =>
    obtain ⟨-, rfl⟩ := Stmt.ofExpr_eq_ok_iff.mp makes
    exact .expression rfl value.presentable
  | declaration isName declarable declares =>
    rw [Stmt.setType?_declare] at declares
    obtain ⟨-, rfl⟩ := Prod.mk.inj (Option.some.inj declares)
    exact .declaration rfl isName rfl declarable
  | definition isName declarable value declares defines =>
    rw [Stmt.setType?_define] at declares
    obtain ⟨-, rfl⟩ := Prod.mk.inj (Option.some.inj declares)
    rw [Stmt.setValue?_definition declarable.isLiteral_head] at defines
    split at defines
    · next fits =>
      obtain ⟨-, rfl⟩ := Prod.mk.inj (Option.some.inj defines)
      exact .definition rfl isName rfl declarable rfl value.presentable fits
    · cases defines

/-- A presentable statement looks like a settled one. -/
theorem PresentableStmt.exists_settled {s : Stmt} (h : PresentableStmt s) :
    ∃ t, SettledStmt t ∧ s.dump = t.dump ∧ s.render 0 = t.render 0 := by
  cases h with
  | @expression value span e holds shown =>
    obtain ⟨e', htwin⟩ := shown.exists_settledTwin
    refine ⟨.expression (.holding (.plain .object) e') span, .expression htwin.settled, ?_, ?_⟩
    · rw [Stmt.dump, Stmt.dump, Slot.dump_of_content (Slot.content_of_expr? holds),
        htwin.alike.dumps]
      rfl
    · rw [Stmt.render, Stmt.render, holds, Slot.expr?_holding]
      simp only [Source.required, htwin.alike.renders, bind, Except.bind]
  | @declaration slot type span at_ id t names isName declares declarable =>
    refine ⟨.declaration (.ofLiteral (.str id)) (Stmt.typeSlot t at_ none) span,
      .declaration isName declarable, ?_, ?_⟩
    · rw [Stmt.dump, Stmt.dump, Slot.dump_of_literal? names,
        Slot.dump_of_content (Slot.content_of_expr? declares)]
      rfl
    · rw [Stmt.render, Stmt.render, declares, Slot.text_of_literal? names]
      rfl
  | @definition slot type span at_ id t e names isName declares declarable holds shown fits =>
    obtain ⟨e', htwin⟩ := shown.exists_settledTwin
    have hfits : e'.valueType.fits t = true := by rwa [← htwin.type]
    refine ⟨.definition (.ofLiteral (.str id)) (Stmt.typeSlot t at_ (some (.holding t e'))) span,
      .definition isName declarable htwin.settled hfits, ?_, ?_⟩
    · obtain ⟨value, hvalue, hholds⟩ := Option.bind_eq_some_iff.mp holds
      rw [Stmt.dump, Stmt.dump, Slot.dump_of_literal? names,
        Slot.dump_of_content (Slot.content_of_expr? declares), hvalue]
      simp only [Slot.dump_of_content (Slot.content_of_expr? hholds), htwin.alike.dumps]
      rfl
    · rw [Stmt.render, Stmt.render, declares, holds, Slot.text_of_literal? names]
      simp only [Source.required, htwin.alike.renders, bind, Except.bind]
      rfl

/-! ## Lines -/

/-- On the rows stand statements that are dumped like the given ones. -/
def ShownOn (rows : List (List Char × List Bare)) (leaves : List Stmt) : Prop :=
  ∃ ss, Lines rows ss ∧ ss.map Stmt.dump = leaves.map Stmt.dump

namespace ShownOn

theorem append {rows rows' : List (List Char × List Bare)} {ss ss' : List Stmt}
    (h : ShownOn rows ss) (h' : ShownOn rows' ss') : ShownOn (rows ++ rows') (ss ++ ss') := by
  obtain ⟨ts, hlines, hdump⟩ := h
  obtain ⟨ts', hlines', hdump'⟩ := h'
  exact ⟨ts ++ ts', hlines.append hlines', by rw [List.map_append, List.map_append, hdump, hdump']⟩

end ShownOn

/-- A presentable statement stands on one line. -/
theorem PresentableStmt.exists_shown {s : Stmt} (h : PresentableStmt s) :
    ∃ rows, rows ≠ [] ∧ ShownOn rows s.leaves ∧ s.render 0 = .ok (layOut rows false) := by
  obtain ⟨t, ht, hdump, hrender⟩ := h.exists_settled
  obtain ⟨cs, bs, hwritten⟩ := ht.written
  refine ⟨[(cs, bs)], by simp, ⟨[t], .line hwritten .nil, ?_⟩, ?_⟩
  · rw [h.leaves, List.map_singleton, List.map_singleton, hdump]
  · have htext : layOut [(cs, bs)] false = String.ofList cs := by simp [layOut]
    rw [hrender, hwritten.renders, htext]

/-- One line feed more stands between the lines of a statement and those of the others. -/
theorem layOut_append {rows rows' : List (List Char × List Bare)} (h : rows ≠ [])
    (h' : rows' ≠ []) :
    layOut (rows ++ rows') false = layOut rows false ++ "\n" ++ layOut rows' false := by
  have hmap : rows.map (fun r => String.ofList r.1) ≠ [] := by simpa using h
  have hmap' : rows'.map (fun r => String.ofList r.1) ≠ [] := by simpa using h'
  simpa [layOut] using String.intercalate_append_of_ne_nil (s := "\n") hmap hmap'

mutual

/-- A statement of a tree stands on at least one line. -/
theorem Stmt.exists_shown : (s : Stmt) → (∀ x ∈ s.leaves, PresentableStmt x) →
    ∃ rows, rows ≠ [] ∧ ShownOn rows s.leaves ∧ s.render 0 = .ok (layOut rows false)
  | .block ⟨body, span⟩, h => by
    obtain ⟨rows, texts, hshown, hrender, htext, hempty⟩ := exists_shown_body body h
    have hstmt : (Stmt.block ⟨body, span⟩).render 0 = .ok (layOut rows false) := by
      rw [Stmt.render, hrender, ← htext]
      rfl
    by_cases hrows : rows = []
    · -- a block without statements is an empty line
      subst hrows
      obtain ⟨ss, hlines, hdump⟩ := hshown
      exact ⟨[([], [])], by simp, ⟨ss, .blank hlines, hdump⟩, hstmt⟩
    · exact ⟨rows, hrows, hshown, hstmt⟩
  | .expression value span, h => (h _ List.mem_cons_self).exists_shown
  | .declaration id type span, h => (h _ List.mem_cons_self).exists_shown
  | .definition id type span, h => (h _ List.mem_cons_self).exists_shown

/-- The statements of a block stand on lines, one below the other. -/
theorem exists_shown_body : (ss : List Stmt) → (∀ x ∈ bodyLeaves ss, PresentableStmt x) →
    ∃ rows texts, ShownOn rows (bodyLeaves ss) ∧ renderStmts 0 ss = .ok texts ∧
      "\n".intercalate texts = layOut rows false ∧ (texts = [] ↔ rows = [])
  | [], _ => ⟨[], [], ⟨[], .nil, rfl⟩, rfl, rfl, by simp⟩
  | s :: ss, h => by
    obtain ⟨rows, hne, hshown, hrender⟩ := s.exists_shown fun x hx =>
      h x (List.mem_append_left _ hx)
    obtain ⟨rows', texts, hshown', hrender', htext, hempty⟩ := exists_shown_body ss fun x hx =>
      h x (List.mem_append_right _ hx)
    refine ⟨rows ++ rows', layOut rows false :: texts, hshown.append hshown', ?_, ?_, ?_⟩
    · rw [renderStmts, hrender, hrender']
      rfl
    · by_cases hrows : rows' = []
      · rw [hempty.mpr hrows, hrows, List.append_nil, String.intercalate_singleton]
      · rw [String.intercalate_cons_of_ne_nil (mt hempty.mp hrows), htext,
          layOut_append hne hrows]
    · simp [hne]

end

/-- **Reading undoes writing, up to the nesting of blocks.**  A tree of blocks whose leaves
are presentable has a source text in either layout; that text is read as a block without
blocks in it, and its statements are dumped as the leaves of the tree are, in order. -/
theorem Block.readSource_render_leaves {b : Block} (h : ∀ s ∈ b.leaves, PresentableStmt s)
    (layout : Bool) (file : String) :
    ∃ text, b.render 0 layout = .ok text ∧
      ∃ b', readSource text file = .ok b' ∧ b'.leaves = b'.body ∧
        b'.body.map Stmt.dump = b.leaves.map Stmt.dump := by
  obtain ⟨rows, texts, ⟨ss, hlines, hdump⟩, hrender, htext, -⟩ := exists_shown_body b.body h
  obtain ⟨b', hread, herase⟩ := hlines.read layout file
  refine ⟨_, Block.render_of_renderStmts hrender htext layout, b', hread, ?_, ?_⟩
  · exact bodyLeaves_of_settled (settled_of_readSource hread)
  · have hdumps : ∀ ts : List Stmt, ts.map Stmt.dump = (ts.map Stmt.eraseSpans).map Stmt.dump := by
      intro ts
      rw [List.map_map]
      exact List.map_congr_left fun s _ => s.dump_eraseSpans.symm
    rw [hdumps, herase, ← hdumps, hdump]
    rfl

/-- An empty block, a block in a block with a `print` that was filled by hand and never
invoked, and a call whose callee is a call that was never invoked either. -/
theorem Block.readSource_render_leaves_nested :
    ∃ b : Block, b.body = [.block ⟨[], .detached⟩,
        .block ⟨[.block ⟨[.expression (.holding (.plain .object)
          (.print ⟨.plain .object, []⟩ (.holding (.plain .str) (.ofLiteral (.str "\n") .detached))
            (.ofType (.plain .str)) .object (.ofType (.plain .bool)) {} .detached)) .detached],
          .detached⟩], .detached⟩,
        .expression (.holding (.plain .object) (.callWith (.callWith (.ofName "f" .detached) [] []
          false .detached) [] [("k", .emptyPrint .detached)] false .detached)) .detached] ∧
      (∀ s ∈ b.leaves, PresentableStmt s) ∧
      ∃ text, text = "\nprint(sep=\"\\n\")\nf()(k=print)" ∧ b.render 0 false = .ok text ∧
        ∃ b', readSource text shellName = .ok b' ∧ b'.leaves = b'.body ∧
          b'.body.map Stmt.dump = b.leaves.map Stmt.dump := by
  refine ⟨⟨_, .detached⟩, rfl, ?_⟩
  generalize hb : (⟨_, .detached⟩ : Block) = b
  have hleaves : ∀ s ∈ b.leaves, PresentableStmt s := by
    have hprint : ∀ k e, PrintOptions.none.set .sep (.ofLiteral (.str "\n") .detached) k = some e →
        Presentable e ∧ e.valueType.fits k.type = true := by
      intro k e he
      rw [PrintOptions.set_apply] at he
      split at he
      · next hk =>
        obtain rfl := Option.some.inj he
        exact ⟨.literal rfl trivial, by rw [hk]; rfl⟩
      · cases he
    have hf : Presentable (.ofName "f" .detached) :=
      .name rfl (by decide) rfl
    have hk : IsName "k" := by decide
    have hcall : Presentable (.callWith (.ofName "f" .detached) [] [] false .detached) :=
      .callWith hf rfl (by simp) (by simp) (by simp) (by simp)
    have hbare : Presentable (.emptyPrint .detached) :=
      .print_maybe [] .none (by simp) (by rintro k e ⟨⟩) (by rintro k e ⟨⟩)
    subst hb
    intro s hs
    rcases List.mem_cons.mp hs with rfl | hs
    · exact .expression rfl (.print_maybe [] (PrintOptions.none.set .sep _) (by simp)
        (fun k e he => (hprint k e he).1) (fun k e he => (hprint k e he).2))
    · obtain rfl := List.mem_singleton.mp hs
      exact .expression rfl (.callWith hcall rfl (by simp) (by simpa using hbare)
        (by simpa using hk) (by simp))
  obtain ⟨text, htext, hread⟩ := Block.readSource_render_leaves hleaves false shellName
  refine ⟨hleaves, text, ?_, htext, hread⟩
  have hform : (b.render 0 false).toOption = some "\nprint(sep=\"\\n\")\nf()(k=print)" := by
    subst hb
    decide +kernel
  exact Except.ok.inj (htext.symm.trans (toOption_eq_some_iff.mp hform))

end SlotTree

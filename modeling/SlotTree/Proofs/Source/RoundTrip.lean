import SlotTree.Proofs.Source.Script

/-!
# Reading, writing and reading again

A source that was read can be written down again, and reading what was written gives the
same block, up to spans.  The tokens of the source are genuine, so its statements are
settled; settled statements are written on lines, one below the other; and lines are read
as their statements.  Since the source text of a block does not depend on spans, writing
the second block gives the text that it was read from.

All this holds with and without the canonical layout, and whatever the two scripts are
called.
-/

namespace SlotTree

open Reading (DerivesScript beforeEnd readSource)

/-- What was read from a source is settled. -/
theorem Reading.settled_of_readSource {source file : String} {b : Block}
    (h : readSource source file = .ok b) : ∀ s ∈ b.body, SettledStmt s := by
  unfold readSource at h
  split at h
  · next tokens htokens =>
    have hgenuine := genuine_of_tokenize htokens
    obtain ⟨hderives, -⟩ := readTokens_eq_ok_iff.mp h
    refine hderives.settled fun t ht => hgenuine t ?_
    exact (List.takeWhile_sublist _).subset ht
  · cases h

/-- Settled statements are written on lines, one below the other. -/
theorem exists_lines_of_settled {ss : List Stmt} (h : ∀ s ∈ ss, SettledStmt s) :
    ∃ rows, Lines rows ss ∧ renderStmts 0 ss = .ok (rows.map fun r => String.ofList r.1) := by
  induction ss with
  | nil => exact ⟨[], .nil, rfl⟩
  | cons s ss ih =>
    obtain ⟨cs, bs, hstmt⟩ := (h s List.mem_cons_self).written
    obtain ⟨rows, hlines, hrender⟩ := ih fun s' hs' => h s' (List.mem_cons_of_mem s hs')
    refine ⟨(cs, bs) :: rows, .line hstmt hlines, ?_⟩
    rw [renderStmts, hstmt.renders, hrender]
    rfl

/-- **What was read can be written, and reading that gives the same block.**  For every
source that is read and either layout, the block has a source text; that text is read too,
as a block that agrees with the first one in everything but spans; and the source text of
the second block is the same again. -/
theorem Reading.readSource_render {source file : String} {b : Block}
    (h : readSource source file = .ok b) (layout : Bool) (file' : String) :
    ∃ text, b.render 0 layout = .ok text ∧
      ∃ b', readSource text file' = .ok b' ∧ b'.eraseSpans = b.eraseSpans ∧
        b'.render 0 layout = .ok text := by
  obtain ⟨rows, hlines, hrender⟩ := exists_lines_of_settled (settled_of_readSource h)
  have htext := Block.render_of_renderStmts hrender rfl layout
  obtain ⟨b', hread, herase⟩ := hlines.read layout file'
  have hspans : b'.eraseSpans = b.eraseSpans := by
    rw [Block.eraseSpans, Block.eraseSpans, eraseStmts_eq_map, eraseStmts_eq_map, herase]
  exact ⟨_, htext, b', hread, hspans, Block.render_of_eraseSpans hspans htext⟩

/-- How a source was written is not kept: numbers in another base, the two kinds of quotes,
parentheses, blanks, comments and semicolons are brought into one form. -/
theorem Reading.readSource_render_one_form :
    ∃ b, readSource "n: int = 0x10; (print)(f('x')(k = 2.50), end='')  # done" shellName = .ok b ∧
      ∃ text, text = "n: int = 16\nprint(f(\"x\")(k=2.5), end=\"\")\n" ∧ b.render 0 true = .ok text ∧
        ∃ b', readSource text shellName = .ok b' ∧ b'.eraseSpans = b.eraseSpans ∧
          b'.render 0 true = .ok text := by
  have hform : ((readSource "n: int = 0x10; (print)(f('x')(k = 2.50), end='')  # done"
      shellName).toOption.bind fun b => (b.render 0 true).toOption) =
        some "n: int = 16\nprint(f(\"x\")(k=2.5), end=\"\")\n" := by
    decide +kernel
  obtain ⟨b, hread, hrender⟩ := Option.bind_eq_some_iff.mp hform
  rw [toOption_eq_some_iff] at hread hrender
  obtain ⟨text, htext, hagain⟩ := readSource_render hread true shellName
  refine ⟨b, hread, text, ?_, htext, hagain⟩
  exact Except.ok.inj (htext.symm.trans hrender)

end SlotTree

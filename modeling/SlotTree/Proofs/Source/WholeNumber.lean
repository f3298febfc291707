import SlotTree.Proofs.Source.Compose
import SlotTree.Proofs.Source.Script
import SlotTree.Proofs.Token.Cover
import SlotTree.Proofs.Token.Origin

/-!
# Whole numbers in source

A whole number is written in decimal, with a minus sign in front if it is negative.  What is
written for a number that is not negative is one number token, which is read as the number
(`Number.read_written_int`).  The sign of a negative number is a token of its own, which
opens a unary operation, and the tree has no node for that.  So every number of 64 bits has a
source form, and the source form is read back exactly if it has no sign
(`readSource_render_int`).

What is refused, and where, is told by the first token of a line.  A token that opens an
expression without a node is refused by the name of that node, before anything behind the
token is looked at except to tell what kind of line it is (`Reading.script_unsupported`).
And the first token of a script that does not start with layout stands at its beginning
(`start_of_tokenize`).
-/

namespace SlotTree

open Lexeme (Skipped Trivia isLayout)
open Reading (DerivesScript DerivesStmt notSupported readSource)

/-! ## The first token of a script -/

/-- What no token stands for starts with layout. -/
theorem Lexeme.Skipped.isLayout_head {c : Char} {cs rest : List Char} (h : Skipped (c :: cs) rest) :
    isLayout c = true := by
  cases h with
  | blanks blank => simp [isLayout, blank c List.mem_cons_self]
  | comment => decide
  | continuation => decide
  | lineEnd lineEnd =>
    rcases lineEnd with heq | heq
    all_goals
      obtain ⟨rfl, -⟩ := List.cons.inj heq
      decide

/-- Where no layout starts, nothing is skipped. -/
theorem Lexeme.Trivia.eq_nil {gap rest : List Char} (h : Trivia rest gap)
    (hopens : ∀ c ∈ (gap ++ rest).head?, isLayout c = false) : gap = [] := by
  induction h with
  | nil => rfl
  | @cons piece gap skipped _ ih =>
    cases piece with
    | nil => exact ih hopens
    | cons c piece => exact absurd skipped.isLayout_head (by simp [hopens c rfl])

/-- **The first token of a script that does not start with layout stands at its
beginning.** -/
theorem start_of_tokenize {source file : String} {t : Token} {ts : List Token}
    (hopens : Opens source.toList) (h : tokenize source file = .ok (t :: ts)) :
    t.span.start = ⟨0, file⟩ := by
  have hfile : t.span.start.file = file := (origin_of_tokenize h t List.mem_cons_self).start_file
  obtain ⟨s, hrun, hemitted⟩ := tokenize_eq_ok_iff.mp h
  obtain ⟨hcovers, hrest⟩ := (Scan.Covers.ofText source.toList).run hrun
  obtain ⟨emitted, hfinish, laid⟩ := hcovers.tiled_finish hrest file
  have hlaid : Scan.endToken file source.toList :: emitted = ts.reverse ++ [t] := by
    rw [← hfinish, ← List.reverse_cons, ← hemitted, List.reverse_reverse]
  obtain ⟨closed, gap, after, htext, hclosed, hstart, htrivia⟩ := laid.gap_before hlaid
  have hnil : closed = [] := by
    cases closed with
    | nil => rfl
    | cons c closed =>
      have hzero : 0 = c.utf8Size + Text.byteLength closed := hclosed
      have hsize := c.utf8Size_pos
      omega
  rw [hnil, List.nil_append] at htext
  have hgap : gap = [] := htrivia.eq_nil (htext ▸ hopens.not_layout)
  have hoffset : t.span.start.offset = 0 := by
    rw [hstart, hnil, hgap]
    rfl
  rw [← hoffset, ← hfile]

/-! ## Refusing a line by its first token -/

namespace Reading

open Parse

/-- A token that opens an expression without a node neither starts a statement nor ends the
script. -/
theorem of_opening_unsupported {kind : TokenKind}
    (h : Grammar.script.opening? kind = some .unsupported) :
    Grammar.script.startsStatement kind = false ∧ kind ≠ .eof := by
  simp only [Grammar.script, Grammar.scriptOpening?] at h
  split at h
  all_goals cases h
  all_goals exact ⟨rfl, by decide⟩

variable {c : Cursor} {node : String}

/-- An expression is refused by the token that it opens with, if the tree has no node for
it. -/
theorem expr_unsupported (hopens : Grammar.script.opening? c.kind = some .unsupported)
    (hnode : openingNode? c = some node) (power : Power) :
    expr .default power c = (.error (notSupported node c.position), c) := by
  have hopening : ∀ inner,
      openExpr .default inner c = (.error (notSupported node c.position), c) := by
    intro inner
    rw [openExpr, look_bind_run, grammar_default, hopens]
    show unsupportedOpening c = _
    rw [unsupportedOpening, hnode]
  exact bind_run_of_error (hopening _)

/-- **A script is refused by the token that it opens with**, if its first line is an expression
that the tree has no node for. -/
theorem script_unsupported (hopens : Grammar.script.opening? c.kind = some .unsupported)
    (hnode : openingNode? c = some node) (hline : classify c = .expression) (file : String) :
    script .default file c = (.error (notSupported node c.position), c) := by
  obtain ⟨hstarts, hkind⟩ := of_opening_unsupported hopens
  have hvalue : valueExpr .default c = (.error (notSupported node c.position), c) :=
    bind_run_of_error (expr_unsupported hopens hnode .lowest)
  have hbody : stmtBody .default c = (.error (notSupported node c.position), c) := by
    rw [stmtBody, look_bind_run, id_eq, grammar_default, if_neg (by simp [hstarts]), hline]
    exact bind_run_of_error hvalue
  have hstmts : stmts .default c.remaining c = (.error (notSupported node c.position), c) := by
    rw [Cursor.remaining, stmts, look_bind_run, Cursor.hasTokens, if_pos (by simpa using hkind)]
    exact bind_run_of_error (bind_run_of_error hbody)
  rw [script, look_bind_run]
  exact bind_run_of_error hstmts

end Reading

/-! ## The source form of a whole number -/

/-- In front of a digit a minus sign is a token of its own. -/
theorem Lexeme.next_dash {c : Char} {rest : List Char} (h : Decimal.isDigit 10 c = true) :
    next ('-' :: c :: rest) = .ok ⟨.token .dash "-", ['-']⟩ := by
  have hother : ∀ d, Decimal.isDigit 10 d = false → (d == c) = false := by
    intro d hd
    rw [beq_eq_false_iff_ne]
    rintro rfl
    exact absurd h (by simp [hd])
  have harrow : ('>' == c) = false := hother '>' (by decide)
  have hequals : ('=' == c) = false := hother '=' (by decide)
  refine next_of_operatorRule (by decide) ?_
  simp [operatorRule, operators, List.find?, List.isPrefixOf, harrow, hequals]

/-- A numeral behind a minus sign. -/
theorem Fragment.negated {cs : List Char} (h : Numeral cs) :
    Fragment ('-' :: cs) [(.dash, "-"), (.number, String.ofList cs)] := by
  have hnumeral := Fragment.numeral h
  refine ⟨fun rest hrest => ?_, ⟨'-', cs, rfl, by decide, by decide⟩,
    hnumeral.closes.append ['-'], ?_, fun depth => rfl, by simp⟩
  · obtain ⟨c, ds, rfl, hc⟩ := Lexeme.head_numeral h
    have hdash : Lexes (c :: ds ++ rest) ['-'] [(.dash, "-")] := .single (Lexeme.next_dash hc)
    exact hdash.append (hnumeral.lexes rest hrest)
  · simpa using hnumeral.oneLine

/-- A whole number may stand as a statement. -/
theorem Stmt.ofExpr_int (v : Int64) (at_ span : Span) :
    Stmt.ofExpr (.ofLiteral (.int v) at_) span =
      .ok (.expression (.holding (.plain .object) (.ofLiteral (.int v) at_)) span) :=
  Stmt.ofExpr_eq_ok_iff.mpr ⟨rfl, rfl⟩

/-- A numeral that stands for a whole number is read as the one statement of its script. -/
theorem readSource_numeral {cs : List Char} {v : Int64} (hnumeral : Numeral cs)
    (hread : Number.read (String.ofList cs) = .ok (.int v)) (layout : Bool) (file : String) :
    ∃ b s at_, readSource (layOut [(cs, [(.number, String.ofList cs)])] layout) file = .ok b ∧
      b.body = [s] ∧ Stmt.ofExpr (.ofLiteral (.int v) at_) at_ = .ok s := by
  obtain ⟨ts, newline, last, htokens, hts, hnewline, hlast⟩ :=
    tokenize_line (.numeral hnumeral) layout file
  obtain ⟨t, rfl, ht⟩ := exists_eq_singleton hts
  have hvalue : Number.read t.text = .ok (.int v) := by
    rwa [Token.text_of_bare ht (by decide)]
  have hstmt : DerivesStmt [t] _ :=
    .expression (.constant (.number (Token.kind_of_bare ht) hvalue)) rfl
  have hscript := DerivesScript.cons hstmt (.newline hnewline) .nil
  have hblock : readSource _ file = .ok ⟨_, ⟨⟨0, file⟩, last.span.start⟩⟩ :=
    Reading.readSource_eq_ok_iff.mpr ⟨_, last, htokens, hlast, hscript, rfl⟩
  exact ⟨_, _, t.span, hblock, rfl, Stmt.ofExpr_int v t.span t.span⟩

/-- A numeral behind a minus sign is refused as a unary operation. -/
theorem readSource_negated {cs : List Char} (hnumeral : Numeral cs) (layout : Bool)
    (file : String) :
    readSource (layOut [('-' :: cs, [(.dash, "-"), (.number, String.ofList cs)])] layout) file =
      .error (notSupported "UnaryOp" ⟨0, file⟩) := by
  have hfragment := Fragment.negated hnumeral
  obtain ⟨ts, newline, last, htokens, hts, hnewline, hlast⟩ := tokenize_line hfragment layout file
  obtain ⟨dash, us, rfl, hdash, hus⟩ := List.map_eq_cons_iff.mp hts
  obtain ⟨number, rfl, hnumber⟩ := exists_eq_singleton hus
  have hdashKind := Token.kind_of_bare hdash
  have hnumberKind := Token.kind_of_bare hnumber
  let c := Cursor.ofTokens ([dash, number] ++ [newline] ++ [last]) file
  have hahead : c.ahead = [dash, number, newline] := by
    simp [c, Cursor.ofTokens, hlast]
  have hkind : c.kind = .dash := by rw [Cursor.kind_of_ahead hahead, hdashKind]
  have hnode : Reading.openingNode? c = some "UnaryOp" := by
    rw [Reading.openingNode?, hkind]
  have hline : Reading.classify c = .expression := by
    rw [Reading.classify, hahead]
    simp [Reading.classifyFrom, hdashKind, hnumberKind, hnewline, TokenKind.isOpening,
      TokenKind.isClosing, TokenKind.isLineEnd]
  have hstart : c.position = ⟨0, file⟩ := by
    rw [Cursor.position, Cursor.current_of_ahead hahead]
    exact start_of_tokenize (opens_layOut hfragment layout) htokens
  rw [readSource, htokens, ← hstart]
  exact congrArg Prod.fst (Reading.script_unsupported (by rw [hkind]; rfl) hnode hline file)

/-- The source form of a whole number that stands as a statement. -/
theorem render_int {v : Int64} {cs : List Char} (h : toString v.toInt = String.ofList cs)
    (bs : List Bare) (at_ span : Span) (layout : Bool) :
    Node.render (.stmt (.expression (.holding (.plain .object) (.ofLiteral (.int v) at_)) span))
      0 layout = .ok (layOut [(cs, bs)] layout) := by
  have hstmt : (Stmt.expression (.holding (.plain .object) (.ofLiteral (.int v) at_)) span).render
      0 = .ok (Source.margin 0 ++ toString v.toInt) := rfl
  rw [Node.render, hstmt, margin_zero, h]
  cases layout <;> rfl

/-- A negative number is written as its magnitude behind a minus sign. -/
theorem toString_of_neg {n : Int} (h : n < 0) :
    toString n = String.ofList ('-' :: Decimal.digits (-n).toNat) := by
  apply String.toList_injective
  rw [Int.toString_eq_repr, Int.repr_eq_if, if_neg (Int.not_le.mpr h), String.toList_ofList,
    String.toList_append, Nat.toList_repr]
  rfl

/-- **The source form of a whole number is read back exactly if the number is not negative.**
Every number of 64 bits has a source form, its decimal notation.  If the number is not negative,
then the source form is read as a script with one statement, which holds the number.  If it is
negative, then the source form is a unary operation and is refused as such at its beginning. -/
theorem readSource_render_int (v : Int64) (at_ span : Span) (layout : Bool) (file : String) :
    let text := toString v.toInt ++ if layout then "\n" else ""
    ∃ s, Stmt.ofExpr (.ofLiteral (.int v) at_) span = .ok s ∧
      Node.render (.stmt s) 0 layout = .ok text ∧
      (0 ≤ v.toInt → ∃ b s' at', readSource text file = .ok b ∧ b.body = [s'] ∧
        Stmt.ofExpr (.ofLiteral (.int v) at') at' = .ok s') ∧
      (v.toInt < 0 → readSource text file = .error (notSupported "UnaryOp" ⟨0, file⟩)) := by
  intro text
  refine ⟨_, Stmt.ofExpr_int v at_ span, ?_⟩
  have htext : ∀ {cs : List Char} {bs : List Bare}, toString v.toInt = String.ofList cs →
      Fragment cs bs → text = layOut [(cs, bs)] layout := by
    intro cs bs hcs hfragment
    rw [layOut_singleton hfragment layout, ← hcs]
  by_cases hsign : 0 ≤ v.toInt
  · obtain ⟨hnumeral, hread⟩ := Number.read_written_int hsign
    have hcs : toString v.toInt = String.ofList (toString v.toInt).toList :=
      String.ofList_toList.symm
    rw [htext hcs (.numeral hnumeral)]
    refine ⟨render_int hcs _ at_ span layout, fun _ => ?_, fun hneg => absurd hsign hneg.not_ge⟩
    exact readSource_numeral hnumeral (by rwa [← hcs]) layout file
  · have hneg : v.toInt < 0 := Int.not_le.mp hsign
    have hcs := toString_of_neg hneg
    have hnumeral : Numeral (Decimal.digits (-v.toInt).toNat) := .whole (DigitRow.digits_row _)
    rw [htext hcs (.negated hnumeral)]
    exact ⟨render_int hcs _ at_ span layout, fun hle => absurd hle hsign,
      fun _ => readSource_negated hnumeral layout file⟩

/-- The greatest number is read back, and the least one is refused. -/
theorem readSource_render_int_limits :
    (∃ b s at_, readSource "9223372036854775807" "script" = .ok b ∧ b.body = [s] ∧
      Stmt.ofExpr (.ofLiteral (.int Int64.maxValue) at_) at_ = .ok s) ∧
    readSource "-9223372036854775808\n" "script" =
      .error (notSupported "UnaryOp" ⟨0, "script"⟩) := by
  have hmax : toString Int64.maxValue.toInt ++ (if false then "\n" else "") =
      "9223372036854775807" := by decide +kernel
  have hmin : toString Int64.minValue.toInt ++ (if true then "\n" else "") =
      "-9223372036854775808\n" := by decide +kernel
  obtain ⟨-, -, -, hgreatest, -⟩ :=
    readSource_render_int Int64.maxValue .detached .detached false "script"
  obtain ⟨-, -, -, -, hleast⟩ :=
    readSource_render_int Int64.minValue .detached .detached true "script"
  rw [hmax] at hgreatest
  rw [hmin] at hleast
  exact ⟨hgreatest (by decide), hleast (by decide)⟩

/-- A negative number has a source form that is not read at all. -/
theorem negative_int_not_read_back :
    ∃ s, Stmt.ofExpr (.ofLiteral (.int (-13)) .detached) .detached = .ok s ∧
      Node.render (.stmt s) 0 false = .ok "-13" ∧
      ∀ b, readSource "-13" Reading.shellName ≠ .ok b := by
  have hrefused : (readSource "-13" Reading.shellName).toOption = none := by decide +kernel
  refine ⟨_, rfl, rfl, fun b hread => ?_⟩
  rw [hread] at hrefused
  cases hrefused

end SlotTree

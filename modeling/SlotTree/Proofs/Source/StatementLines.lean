import Mathlib.Data.List.Forall2
import SlotTree.Proofs.Source.RoundTrip
import SlotTree.Proofs.Token.Quotation

/-!
# One statement, one line

The source text of a block that was read has one line for each statement.  Two facts about what a
settled statement is written as make it so.  There is no control character in it, since names and
numerals have none and a text is written with its control characters escaped
(`SettledStmt.printsPlain`); so it has no line end of any kind.  And its last character is
visible, which is known from its tokens (`SettledStmt.written`).

The level shows in the margin alone (`Stmt.render_eq_margin_append`), and blanks in front of a line
take neither fact away.  So the canonical layout finds nothing to take off, at the end of a line or
at the end of the text, and only adds the last line feed.  Blanks within a text literal are no
blanks at the end of a line, whatever Unicode says of them: the closing quote is behind them.
-/

namespace SlotTree

open Reading (Argument readSource)

/-! ## Texts without control characters -/

namespace Source

/-- The text has none of the control characters that come before the blank, and so no line end. -/
def Printable (cs : List Char) : Prop := ∀ c ∈ cs, 32 ≤ c.toNat

instance (cs : List Char) : Decidable (Printable cs) :=
  decidable_of_iff (cs.all (32 ≤ ·.toNat) = true) (by simp [Printable])

theorem Printable.not_mem {cs : List Char} (h : Printable cs) {c : Char} (hc : c.toNat < 32) :
    c ∉ cs := fun hmem => absurd (h c hmem) (Nat.not_le.mpr hc)

@[simp] theorem printable_append {cs ds : List Char} :
    Printable (cs ++ ds) ↔ Printable cs ∧ Printable ds := List.forall_mem_append

theorem printable_margin (level : Nat) : Printable (List.replicate (4 * level) ' ') := by
  intro c hc
  rw [List.eq_of_mem_replicate hc]
  decide

/-- What holds of the characters of all parts and of those between them holds of all characters. -/
theorem forall_mem_intercalate {p : Char → Prop} {sep : List Char} {ls : List (List Char)}
    (hsep : ∀ c ∈ sep, p c) (h : ∀ l ∈ ls, ∀ c ∈ l, p c) : ∀ c ∈ sep.intercalate ls, p c := by
  induction ls with
  | nil => exact nofun
  | cons l ls ih =>
    have hls := ih fun l' hl' => h l' (List.mem_cons_of_mem l hl')
    cases ls with
    | nil => simpa using h l List.mem_cons_self
    | cons k ls =>
      rw [List.intercalate_cons_cons, List.forall_mem_append, List.forall_mem_append]
      exact ⟨⟨h l List.mem_cons_self, hsep⟩, hls⟩

/-- No character of a name is a control character. -/
theorem printable_of_name {c : Char}
    (h : Text.isNameStart c = true ∨ Text.isNameContinue c = true) : 32 ≤ c.toNat := by
  have hnone : ∀ n < 32, Text.isNameStart (Char.ofNat n) = false ∧
      Text.isNameContinue (Char.ofNat n) = false := by
    decide +kernel
  by_contra hcontrol
  obtain ⟨hstart, hcontinue⟩ := hnone c.toNat (Nat.not_le.mp hcontrol)
  rw [Char.ofNat_toNat] at hstart hcontinue
  simp [hstart, hcontinue] at h

theorem printable_of_isWord {cs : List Char} (h : Lexeme.IsWord cs) : Printable cs := by
  obtain ⟨c, ds, rfl, hc, hds⟩ := h
  intro d hd
  rcases List.mem_cons.mp hd with rfl | hd
  · exact printable_of_name (Or.inl hc)
  · exact printable_of_name (Or.inr (hds d hd))

theorem printable_of_numeral {cs : List Char} (h : Numeral cs) : Printable cs := by
  intro c hc
  rcases h.mem hc with hdigit | rfl | rfl | rfl | rfl
  · exact printable_of_name (Or.inr (Lexeme.isLayout_of_isDigit hdigit).2)
  all_goals decide

/-- The outcome is a text without control characters. -/
def PrintsPlain (outcome : Except Fault String) : Prop :=
  ∃ text, outcome = .ok text ∧ Printable text.toList

theorem PrintsPlain.bind {outcome : Except Fault String} {next : String → Except Fault String}
    (h : PrintsPlain outcome) (hnext : ∀ text, Printable text.toList → PrintsPlain (next text)) :
    PrintsPlain (outcome >>= next) := by
  obtain ⟨text, rfl, htext⟩ := h
  exact hnext text htext

end Source

open Source (Printable PrintsPlain)

/-! ## Expressions and annotations -/

theorem printable_of_written? : {t : Ty} → {text : String} → t.written? = some text →
    Printable text.toList
  | .list item, text, h => by
    obtain ⟨inner, hinner, rfl⟩ := Option.map_eq_some_iff.mp h
    have hprintable := printable_of_written? hinner
    simp only [String.toList_append, Source.printable_append]
    exact ⟨⟨by decide, hprintable⟩, by decide⟩
  | .plain c, text, h => by
    have hall : ∀ word ∈ (Ty.plain c).written?, Printable word.toList := by
      cases c <;> decide
    exact hall text h
  | .keywordOnly .., _, h | .callable .., _, h => nomatch h

theorem printsPlain_literal {v : Literal} {span : Span} (h : v.Writable) :
    PrintsPlain (Expr.ofLiteral v span).render := by
  cases v with
  | bool b => cases b <;> exact ⟨_, rfl, by decide⟩
  | none => exact ⟨_, rfl, by decide⟩
  | int n => exact ⟨_, rfl, Source.printable_of_numeral (Number.read_written_int h).1⟩
  | float x =>
    have hnumeral := (Number.read_written_float h.1 h.2).1
    refine ⟨_, Expr.render_float h.1 span, ?_⟩
    rw [String.toList_ofList]
    exact Source.printable_of_numeral hnumeral
  | str s =>
    refine ⟨_, rfl, ?_⟩
    rw [Source.quote, String.toList_ofList]
    exact fun _ => Source.printable_of_mem_quoteChars

theorem printsPlain_passedUnder {passed : String × Expr} (hname : IsName passed.1)
    (h : PrintsPlain passed.2.render) : PrintsPlain (passedUnder passed).render := by
  obtain ⟨text, hrender, hprintable⟩ := h
  refine ⟨passed.1 ++ "=" ++ text, ?_, ?_⟩
  · have hpassed : (passedUnder passed).render = passed.2.render.map (passed.1 ++ "=" ++ ·) := rfl
    rw [hpassed, hrender]
    rfl
  · simp only [String.toList_append, Source.printable_append]
    exact ⟨⟨Source.printable_of_isWord hname.word, by decide⟩, hprintable⟩

/-- Arguments behind an opening parenthesis. -/
theorem printable_enclosed {opening : String} {texts : List String}
    (hopening : Printable opening.toList) (h : ∀ text ∈ texts, Printable text.toList) :
    Printable (opening ++ Source.commaSeparated texts ++ ")").toList := by
  have hargs : Printable (Source.commaSeparated texts).toList := by
    rw [Source.commaSeparated, String.toList_intercalate]
    have hcomma : Printable ", ".toList := by decide
    refine Source.forall_mem_intercalate hcomma fun l hl => ?_
    obtain ⟨text, htext, rfl⟩ := List.mem_map.mp hl
    exact h text htext
  simp only [String.toList_append, Source.printable_append]
  exact ⟨⟨hopening, hargs⟩, by decide⟩

/-- **No control character is written anywhere in a settled expression.** -/
theorem Settled.printsPlain {e : Expr} (h : Settled e) : PrintsPlain e.render := by
  induction h with
  | literal writable => exact printsPlain_literal writable
  | @name id span isName isVariable => exact ⟨id, rfl, Source.printable_of_isWord isName.word⟩
  | mention => exact ⟨"print", rfl, by decide⟩
  | @print objects options span items parts fits ihItems ihParts =>
    have hargs : ∀ a ∈ printArguments objects options, PrintsPlain a.render := by
      intro a ha
      rcases List.mem_append.mp ha with ha | ha
      · obtain ⟨e, he, rfl⟩ := List.mem_map.mp ha
        exact ihItems e he
      · obtain ⟨k, -, ha⟩ := List.mem_flatMap.mp ha
        obtain ⟨e, he, rfl⟩ := List.mem_map.mp ha
        exact printsPlain_passedUnder k.isName_name (ihParts k e (Option.mem_toList.mp he))
    choose! text htext using hargs
    refine ⟨_, Expr.render_printWith fun a ha => (htext a ha).1, ?_⟩
    have hopening : Printable "print(".toList := by decide
    refine printable_enclosed hopening fun line hline => ?_
    obtain ⟨a, ha, rfl⟩ := List.mem_map.mp hline
    exact (htext a ha).2
  | @call func args keywords span callee isCalled items parts names distinct ihCallee ihItems
      ihParts =>
    have hargs : ∀ a ∈ callArguments args keywords, PrintsPlain a.render := by
      intro a ha
      rcases List.mem_append.mp ha with ha | ha
      · obtain ⟨e, he, rfl⟩ := List.mem_map.mp ha
        exact ihItems e he
      · obtain ⟨passed, hpassed, rfl⟩ := List.mem_map.mp ha
        exact printsPlain_passedUnder (names passed hpassed) (ihParts passed hpassed)
    choose! text htext using hargs
    obtain ⟨head, hhead, hprintable⟩ := ihCallee
    refine ⟨_, Expr.render_callWith hhead fun a ha => (htext a ha).1, ?_⟩
    have hopening : Printable (head ++ "(").toList := by
      rw [String.toList_append, Source.printable_append]
      exact ⟨hprintable, by decide⟩
    refine printable_enclosed hopening fun line hline => ?_
    obtain ⟨a, ha, rfl⟩ := List.mem_map.mp hline
    exact (htext a ha).2

/-! ## Statements -/

/-- **The level shows in the margin alone**, for every statement that is no block. -/
theorem Stmt.render_eq_margin_append {s : Stmt} (h : ∀ b, s ≠ .block b) (level : Nat) :
    s.render level = (Source.margin level ++ ·) <$> s.render 0 := by
  cases s with
  | block b => exact absurd rfl (h b)
  | expression value span =>
    rw [render, render, map_bind]
    refine bind_congr fun value => ?_
    rw [map_bind]
    refine bind_congr fun text => congrArg Except.ok ?_
    rw [margin_zero]
  | declaration id type span =>
    rw [render, render, map_bind]
    refine bind_congr fun type => ?_
    rw [map_bind]
    refine bind_congr fun text => congrArg Except.ok ?_
    simp only [margin_zero, String.append_assoc]
  | definition id type span =>
    rw [render, render, map_bind]
    refine bind_congr fun type => ?_
    rw [map_bind]
    refine bind_congr fun value => ?_
    rw [map_bind]
    refine bind_congr fun declared => ?_
    rw [map_bind]
    refine bind_congr fun text => congrArg Except.ok ?_
    simp only [margin_zero, String.append_assoc]

theorem printsPlain_type {t : Ty} (h : t.Declarable) (span : Span) :
    PrintsPlain (Expr.type t span).render := by
  obtain ⟨cs, hwritten⟩ := h.written
  exact ⟨_, hwritten.render_type span, printable_of_written? hwritten.renders⟩

theorem SettledStmt.ne_block {s : Stmt} (h : SettledStmt s) (b : Block) : s ≠ .block b := by
  cases h <;> nofun

/-- **No control character is written anywhere in a settled statement.** -/
theorem SettledStmt.printsPlain {s : Stmt} (h : SettledStmt s) : PrintsPlain (s.render 0) := by
  cases h with
  | @expression e span value =>
    show PrintsPlain (e.render >>= fun text => .ok (Source.margin 0 ++ text))
    refine value.printsPlain.bind fun text htext => ⟨_, rfl, ?_⟩
    rwa [margin_zero]
  | @declaration id t at_ span isName type =>
    show PrintsPlain ((Expr.type t at_).render >>= fun text =>
      .ok (Source.margin 0 ++ id ++ ": " ++ text))
    refine (printsPlain_type type at_).bind fun text htext => ⟨_, rfl, ?_⟩
    simp only [margin_zero, String.toList_append, Source.printable_append]
    exact ⟨⟨Source.printable_of_isWord isName.word, by decide⟩, htext⟩
  | @definition id t at_ span e isName type value fits =>
    show PrintsPlain ((Expr.type t at_).render >>= fun declared => e.render >>= fun text =>
      .ok (Source.margin 0 ++ id ++ ": " ++ declared ++ " = " ++ text))
    refine (printsPlain_type type at_).bind fun declared hdeclared => ?_
    refine value.printsPlain.bind fun text htext => ⟨_, rfl, ?_⟩
    simp only [margin_zero, String.toList_append, Source.printable_append]
    exact ⟨⟨⟨⟨Source.printable_of_isWord isName.word, by decide⟩, hdeclared⟩, by decide⟩, htext⟩

/-- **A settled statement is written on a line**: without control characters, and with something
visible at the end. -/
theorem SettledStmt.exists_line {s : Stmt} (h : SettledStmt s) :
    ∃ line, Closes line ∧ Printable line ∧ ∀ level,
      s.render level = .ok (String.ofList (List.replicate (4 * level) ' ' ++ line)) := by
  obtain ⟨line, _, hwritten⟩ := h.written
  obtain ⟨text, htext, hprintable⟩ := h.printsPlain
  obtain rfl : String.ofList line = text := Except.ok.inj (hwritten.renders.symm.trans htext)
  rw [String.toList_ofList] at hprintable
  refine ⟨line, hwritten.fragment.closes, hprintable, fun level => ?_⟩
  rw [Stmt.render_eq_margin_append h.ne_block, hwritten.renders, String.ofList_append]
  rfl

/-! ## Lines -/

namespace Source

/-- Lines without blanks at their ends, one below the other, are in canonical layout but for the
last line feed. -/
theorem formatChars_of_closes {ls : List (List Char)} (hne : ls ≠ [])
    (h : ∀ l ∈ ls, '\n' ∉ l ∧ Closes l) :
    formatChars (['\n'].intercalate ls) = ['\n'].intercalate ls ++ ['\n'] := by
  have hkept : ls.rdropWhile List.isEmpty = ls := by
    refine List.rdropWhile_eq_self_iff.mpr fun hls => ?_
    -- the last line ends in something visible
    obtain ⟨ds, c, hlast, -⟩ := (h _ (List.getLast_mem hls)).2
    simp [hlast]
  rw [formatChars_intercalate fun l hl => ⟨(h l hl).1, Or.inr (h l hl).2⟩, hkept]
  obtain ⟨init, last, rfl⟩ := List.eq_nil_or_concat ls |>.resolve_left hne
  rw [List.concat_eq_append, intercalate_append]
  simp [endLines]

end Source

theorem renderStmts_of_forall {level : Nat} {ss : List Stmt} {text : Stmt → String}
    (h : ∀ s ∈ ss, s.render level = .ok (text s)) : renderStmts level ss = .ok (ss.map text) := by
  induction ss with
  | nil => rfl
  | cons s ss ih =>
    rw [renderStmts, h s List.mem_cons_self, ih fun s' hs' => h s' (List.mem_cons_of_mem s hs')]
    rfl

/-- A block stands on the lines of its statements. -/
theorem Block.render_of_forall {b : Block} {level : Nat} {line : Stmt → List Char}
    (h : ∀ s ∈ b.body, s.render level = .ok (String.ofList (line s))) (layout : Bool) :
    b.render level layout = .ok (
      if layout then Source.format (String.ofList (['\n'].intercalate (b.body.map line)))
      else String.ofList (['\n'].intercalate (b.body.map line))) := by
  have htext : "\n".intercalate (b.body.map fun s => String.ofList (line s)) =
      String.ofList (['\n'].intercalate (b.body.map line)) := by
    apply String.toList_injective
    simp [String.toList_intercalate, Function.comp_def]
  obtain ⟨body, span⟩ := b
  rw [Block.render, Node.render, Stmt.render, renderStmts_of_forall h, ← htext]
  rfl

/-- The lines of statements, so many levels from the left. -/
def indentedLines (line : Stmt → List Char) (level : Nat) (ss : List Stmt) : List (List Char) :=
  ss.map fun s => List.replicate (4 * level) ' ' ++ line s

theorem map_indentedLines (line : Stmt → List Char) (level : Nat) (ss : List Stmt) :
    (indentedLines line 0 ss).map (List.replicate (4 * level) ' ' ++ ·) =
      indentedLines line level ss := by
  simp [indentedLines, Function.comp_def]

/-- **One statement, one line.**  For every source with statements that is read, and every level,
the block has a source text of as many lines as there are statements, each of them the text of its
statement.  The lines are those of level zero behind four blanks for each level; there is no
carriage return in them; and the canonical layout is the same text with a line feed behind it. -/
theorem Reading.readSource_render_lines {source file : String} {b : Block}
    (h : readSource source file = .ok b) (hne : b.body ≠ []) (level : Nat) :
    ∃ flat text, b.render 0 false = .ok flat ∧ b.render level false = .ok text ∧
      (text.toList.splitOn '\n').length = b.body.length ∧
      List.Forall₂ (fun s line => s.render level = .ok (String.ofList line)) b.body
        (text.toList.splitOn '\n') ∧
      text.toList.splitOn '\n' =
        (flat.toList.splitOn '\n').map (List.replicate (4 * level) ' ' ++ ·) ∧
      '\r' ∉ text.toList ∧ b.render level true = .ok (text ++ "\n") := by
  have hsettled := fun s hs => (settled_of_readSource h s hs).exists_line
  choose! line hcloses hprintable hrender using hsettled
  have hlines : ∀ n, ∀ l ∈ indentedLines line n b.body, Printable l ∧ Closes l := by
    intro n l hl
    obtain ⟨s, hs, rfl⟩ := List.mem_map.mp hl
    refine ⟨Source.printable_append.mpr ⟨Source.printable_margin n, hprintable s hs⟩, ?_⟩
    exact (hcloses s hs).append _
  have hlineFeed : ∀ n, ∀ l ∈ indentedLines line n b.body, '\n' ∉ l := fun n l hl =>
    (hlines n l hl).1.not_mem (by decide)
  have hrows : ∀ n, indentedLines line n b.body ≠ [] := fun n => by simpa [indentedLines] using hne
  have hsplit : ∀ n, (['\n'].intercalate (indentedLines line n b.body)).splitOn '\n' =
      indentedLines line n b.body := fun n =>
    List.splitOn_intercalate '\n' (hlineFeed n) (hrows n)
  have htext : ∀ n, b.render n false =
      .ok (String.ofList (['\n'].intercalate (indentedLines line n b.body))) := fun n =>
    Block.render_of_forall (fun s hs => hrender s hs n) false
  refine ⟨_, _, htext 0, htext level, ?_⟩
  simp only [String.toList_ofList, hsplit]
  refine ⟨by simp [indentedLines], ?_, (map_indentedLines line level b.body).symm, ?_, ?_⟩
  · rw [indentedLines, List.forall₂_map_right_iff, List.forall₂_same]
    exact fun s hs => hrender s hs level
  · have hreturn : ∀ l ∈ indentedLines line level b.body, ∀ c ∈ l, c ≠ '\r' := by
      rintro l hl c hc rfl
      exact (hlines level l hl).1.not_mem (by decide) hc
    exact fun hmem => Source.forall_mem_intercalate (by simp) hreturn _ hmem rfl
  · rw [Block.render_of_forall (fun s hs => hrender s hs level) true, if_pos rfl, Source.format,
      String.toList_ofList]
    rw [← indentedLines, Source.formatChars_of_closes (hrows level) fun l hl =>
      ⟨hlineFeed level l hl, (hlines level l hl).2⟩, String.ofList_append]

/-- A text with both line ends in it, and one that ends in two blanks, two levels from the left. -/
theorem Reading.readSource_render_lines_escaped :
    ∃ b, readSource "s: str = 'a\\r\\nb\u2028 '; f(x, 'c \u0085', k='\\t')\nprint"
        shellName = .ok b ∧ b.body ≠ [] ∧
      ∃ text, text =
          "        s: str = \"a\\r\\nb\u2028 \"\n        f(x, \"c \u0085\", k=\"\\t\")\n        print" ∧
        b.render 2 false = .ok text ∧ (text.toList.splitOn '\n').length = b.body.length ∧
        '\r' ∉ text.toList ∧ b.render 2 true = .ok (text ++ "\n") := by
  have hform :
      ((readSource "s: str = 'a\\r\\nb\u2028 '; f(x, 'c \u0085', k='\\t')\nprint"
        shellName).toOption.bind fun b => (b.render 2 false).toOption.map fun text =>
          (b.body.length, text)) =
        some (3,
          "        s: str = \"a\\r\\nb\u2028 \"\n        f(x, \"c \u0085\", k=\"\\t\")\n        print") := by
    decide +kernel
  obtain ⟨b, hread, hrender⟩ := Option.bind_eq_some_iff.mp hform
  obtain ⟨text, htext, hpair⟩ := Option.map_eq_some_iff.mp hrender
  obtain ⟨hlength, rfl⟩ := Prod.mk.inj hpair
  rw [toOption_eq_some_iff] at hread htext
  have hne : b.body ≠ [] := by
    intro hnil
    rw [hnil] at hlength
    cases hlength
  obtain ⟨-, text', -, htext', hcount, -, -, hreturn, hlayout⟩ :=
    readSource_render_lines hread hne 2
  obtain rfl := Except.ok.inj (htext.symm.trans htext')
  exact ⟨b, hread, hne, _, rfl, htext, hcount, hreturn, hlayout⟩

end SlotTree

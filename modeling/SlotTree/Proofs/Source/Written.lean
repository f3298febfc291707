import Mathlib.Tactic.Choose
import SlotTree.Proofs.Source.Settled
import SlotTree.Proofs.Token.Fragment
import SlotTree.Proofs.Tree.Forms

/-!
# What is written is read back

Every settled expression and every settled statement has a source form, the form is a
fragment of a line, and tokens that say what the fragment says are a phrase that denotes
the expression again, up to spans.  The three facts are proved together, by induction over
the tree (`Settled.written`), since each of them needs the others for the parts: the text
of a call is put together from the texts of its arguments, its tokens from their tokens,
and what the tokens denote from what theirs denote.

Between trees and tokens stands `WrittenAs`, which says the three facts of one expression,
and `ArgumentWrittenAs`, which says them of an argument.
-/

namespace SlotTree

open Reading (Argument Derives DerivesStmt DerivesType Phrase)

/-! ## Tokens by what they say -/

theorem Token.kind_of_bare {t : Token} {kind : TokenKind} {text : String}
    (h : t.bare = (kind, text)) : t.kind = kind := congrArg Prod.fst h

theorem Token.text_of_bare {t : Token} {kind : TokenKind} {text : String}
    (h : t.bare = (kind, text)) (hkind : kind ≠ .newline ∧ kind ≠ .eof) : t.text = text := by
  have hkind' := Token.kind_of_bare h
  have htext := congrArg Prod.snd h
  simpa [Token.bare, hkind', hkind] using htext

/-- The one token that says what one token says. -/
theorem exists_eq_singleton {ts : List Token} {b : Bare} (h : ts.map Token.bare = [b]) :
    ∃ t, ts = [t] ∧ t.bare = b := by
  obtain ⟨t, us, rfl, ht, hus⟩ := List.map_eq_cons_iff.mp h
  exact ⟨t, by rw [List.map_eq_nil_iff.mp hus], ht⟩

/-- Tokens that say what stands in brackets behind something else. -/
theorem exists_eq_enclosed {ts : List Token} {us vs : List Bare} {o c : Bare}
    (h : ts.map Token.bare = us ++ ([o] ++ (vs ++ [c]))) :
    ∃ ts₁ opening ts₂ closing, ts = ts₁ ++ opening :: (ts₂ ++ [closing]) ∧
      ts₁.map Token.bare = us ∧ opening.bare = o ∧ ts₂.map Token.bare = vs ∧ closing.bare = c := by
  rw [List.singleton_append] at h
  obtain ⟨ts₁, rest, rfl, hts₁, hrest⟩ := List.map_eq_append_iff.mp h
  obtain ⟨opening, inner, rfl, hopening, hinner⟩ := List.map_eq_cons_iff.mp hrest
  obtain ⟨ts₂, last, rfl, hts₂, hlast⟩ := List.map_eq_append_iff.mp hinner
  obtain ⟨closing, rfl, hclosing⟩ := exists_eq_singleton hlast
  exact ⟨ts₁, opening, ts₂, closing, rfl, hts₁, hopening, hts₂, hclosing⟩

/-- Tokens that say what stands on the two sides of a separator. -/
theorem exists_eq_glued {ts : List Token} {us vs : List Bare} {b : Bare}
    (h : ts.map Token.bare = us ++ ([b] ++ vs)) :
    ∃ ts₁ t ts₂, ts = ts₁ ++ t :: ts₂ ∧ ts₁.map Token.bare = us ∧ t.bare = b ∧
      ts₂.map Token.bare = vs := by
  obtain ⟨ts₁, rest, rfl, hts₁, hrest⟩ := List.map_eq_append_iff.mp h
  obtain ⟨t, ts₂, rfl, ht, hts₂⟩ := List.map_eq_cons_iff.mp hrest
  exact ⟨ts₁, t, ts₂, rfl, hts₁, ht, hts₂⟩

/-! ## What is to be shown -/

/-- The expression is written as the text, and tokens that say what the text says denote
it. -/
structure WrittenAs (e : Expr) (cs : List Char) (bs : List Bare) : Prop where
  renders : e.render = .ok (String.ofList cs)
  fragment : Fragment cs bs
  reads : ∀ ts, ts.map Token.bare = bs →
    ∃ e', Derives ts (.expr e') ∧ e'.eraseSpans = e.eraseSpans

/-- The argument is written as the text, and tokens that say what the text says denote
it. -/
structure ArgumentWrittenAs (a : Argument) (cs : List Char) (bs : List Bare) : Prop where
  renders : a.render = .ok (String.ofList cs)
  fragment : Fragment cs bs
  reads : ∀ ts, ts.map Token.bare = bs →
    ∃ a', Derives ts (.argument a') ∧ a'.eraseSpans = a.eraseSpans

/-- The expression is written somehow. -/
def Written (e : Expr) : Prop := ∃ cs bs, WrittenAs e cs bs

/-! ## Names and literals -/

/-- A name that is not reserved is an identifier. -/
theorem IsName.nameKind {id : String} (h : IsName id) : Lexeme.nameKind id = .identifier := by
  rw [Lexeme.nameKind, h.free]

theorem IsName.fragment {id : String} (h : IsName id) :
    Fragment id.toList [(.identifier, id)] := by
  have hname := Fragment.name h.word
  rwa [String.ofList_toList, h.nameKind] at hname

/-- A word that is a constant. -/
theorem written_word {e : Expr} (word : String) (kind : TokenKind) {v : Literal}
    (hword : Lexeme.IsWord word.toList) (hkind : Lexeme.nameKind word = kind)
    (hrender : e.render = .ok word)
    (hreads : ∀ t : Token, t.kind = kind → Reading.Constant t v)
    (herase : ∀ span, (Expr.ofLiteral v span).eraseSpans = e.eraseSpans) : Written e := by
  refine ⟨word.toList, [(kind, word)], ?_, ?_, fun ts hts => ?_⟩
  · rw [String.ofList_toList, hrender]
  · have hname := Fragment.name hword
    rwa [String.ofList_toList, hkind] at hname
  · obtain ⟨t, rfl, ht⟩ := exists_eq_singleton hts
    exact ⟨_, .constant (hreads t (Token.kind_of_bare ht)), herase _⟩

/-- A numeral that is a constant. -/
theorem written_numeral {e : Expr} {text : List Char} {v : Literal} (hnumeral : Numeral text)
    (hread : Number.read (String.ofList text) = .ok v)
    (hrender : e.render = .ok (String.ofList text))
    (herase : ∀ span, (Expr.ofLiteral v span).eraseSpans = e.eraseSpans) : Written e := by
  refine ⟨text, _, hrender, .numeral hnumeral, fun ts hts => ?_⟩
  obtain ⟨t, rfl, ht⟩ := exists_eq_singleton hts
  have htext := Token.text_of_bare ht (by decide)
  exact ⟨_, .constant (.number (Token.kind_of_bare ht) (by rw [htext, hread])), herase _⟩

/-- The source text of a finite floating-point number. -/
theorem Expr.render_float {x : Binary64} (h : x.isFinite = true) (span : Span) :
    (Expr.ofLiteral (.float x) span).render =
      .ok (String.ofList (FloatStyle.source.write x)) := by
  have hfloat : Source.float? x = some (String.ofList (FloatStyle.source.write x)) := by
    rw [Source.float?, if_pos h]
  show Source.literal .float (.ofLiteral (.float x)) span = _
  simp only [Source.literal, Slot.floating, Slot.literal?_ofLiteral, hfloat]

/-- A literal that can be written is read back. -/
theorem written_literal {v : Literal} {span : Span} (h : v.Writable) :
    Written (.ofLiteral v span) := by
  cases v with
  | bool b =>
    cases b with
    | true =>
      exact written_word "True" (.reserved .true_) (by decide) (by decide) rfl
        (fun t => .true_) fun span' => rfl
    | false =>
      exact written_word "False" (.reserved .false_) (by decide) (by decide) rfl
        (fun t => .false_) fun span' => rfl
  | none =>
    exact written_word "None" (.reserved .none_) (by decide) (by decide) rfl
      (fun t => .none_) fun span' => rfl
  | int n =>
    obtain ⟨hnumeral, hread⟩ := Number.read_written_int h
    exact written_numeral hnumeral (by rwa [String.ofList_toList])
      (by rw [String.ofList_toList]; rfl) fun span' => rfl
  | float x =>
    obtain ⟨hnumeral, hread⟩ := Number.read_written_float h.1 h.2
    exact written_numeral hnumeral hread (Expr.render_float h.1 span) fun span' => rfl
  | str s =>
    refine ⟨Source.quoteChars s.toList, _, rfl, .quoted s.toList, fun ts hts => ?_⟩
    obtain ⟨t, rfl, ht⟩ := exists_eq_singleton hts
    have hkind := Token.kind_of_bare ht
    have htext := Token.text_of_bare ht (by decide)
    refine ⟨_, .text (by simpa using hkind), ?_⟩
    simp [htext, Expr.ofLiteral, Expr.eraseSpans, Literal.kind]

/-- The name of a variable is read back. -/
theorem written_name {id : String} {span : Span} (hname : IsName id)
    (hvariable : Registry.default.find? id = none) : Written (.ofName id span) := by
  refine ⟨id.toList, _, ?_, hname.fragment, fun ts hts => ?_⟩
  · rw [String.ofList_toList]
    rfl
  · obtain ⟨t, rfl, ht⟩ := exists_eq_singleton hts
    have htext := Token.text_of_bare ht (by decide)
    refine ⟨_, .name (Token.kind_of_bare ht), ?_⟩
    rw [Reading.mention, htext, hvariable]
    rfl

/-- The token `print` denotes the builtin. -/
theorem mention_print {t : Token} (h : t.text = "print") :
    Reading.mention t = .emptyPrint t.span := by
  have hprint : Registry.default.find? "print" = some Expr.emptyPrint := by rfl
  rw [Reading.mention, h, hprint]

theorem isName_print : IsName "print" := by decide

theorem PrintKey.isName_name (k : PrintKey) : IsName k.name := by
  cases k <;> decide

theorem written_mention {span : Span} : Written (.emptyPrint span) := by
  refine ⟨"print".toList, _, ?_, isName_print.fragment, fun ts hts => ?_⟩
  · rw [String.ofList_toList]
    rfl
  · obtain ⟨t, rfl, ht⟩ := exists_eq_singleton hts
    refine ⟨_, .name (Token.kind_of_bare ht), ?_⟩
    rw [mention_print (Token.text_of_bare ht (by decide))]
    rfl

/-! ## Arguments -/

/-- A positional argument is written as its value. -/
theorem written_positional {e : Expr} (h : Written e) :
    ∃ cs bs, ArgumentWrittenAs (positional e) cs bs := by
  obtain ⟨cs, bs, h⟩ := h
  refine ⟨cs, bs, h.renders, h.fragment, fun ts hts => ?_⟩
  obtain ⟨e', he', herase⟩ := h.reads ts hts
  exact ⟨positional e', .positional he', by rw [Argument.eraseSpans, positional, herase]; rfl⟩

/-- A keyword argument is written as its keyword, an equals sign and its value. -/
theorem written_passedUnder (passed : String × Expr) (hname : IsName passed.1)
    (h : Written passed.2) : ∃ cs bs, ArgumentWrittenAs (passedUnder passed) cs bs := by
  obtain ⟨cs, bs, h⟩ := h
  have hfragment := Fragment.keyword hname.word h.fragment
  rw [String.ofList_toList, hname.nameKind] at hfragment
  refine ⟨passed.1.toList ++ '=' :: cs, _, ?_, hfragment, fun ts hts => ?_⟩
  · have hrender : (passedUnder passed).render =
        passed.2.render.map (passed.1 ++ "=" ++ ·) := rfl
    have htext : passed.1 ++ "=" ++ String.ofList cs =
        String.ofList (passed.1.toList ++ '=' :: cs) := by
      apply String.toList_injective
      simp
    rw [hrender, h.renders, ← htext]
    rfl
  · obtain ⟨target, rest, rfl, htarget, hrest⟩ := List.map_eq_cons_iff.mp hts
    obtain ⟨equals, us, rfl, hequals, hus⟩ := List.map_eq_cons_iff.mp hrest
    obtain ⟨e', he', herase⟩ := h.reads us hus
    refine ⟨_, .keyword (Token.kind_of_bare htarget) (Token.kind_of_bare hequals) he', ?_⟩
    rw [Argument.eraseSpans, herase, Token.text_of_bare htarget (by decide)]
    rfl

/-- Tokens that say what arguments with commas between them say denote these arguments. -/
theorem derives_arguments {args : List Argument} {part : Argument → List Char × List Bare}
    (h : ∀ a ∈ args, ArgumentWrittenAs a (part a).1 (part a).2) :
    ∀ ts, ts.map Token.bare = [(.comma, ",")].intercalate (args.map fun a => (part a).2) →
      ∃ args', Derives ts (.arguments args') ∧
        args'.map Argument.eraseSpans = args.map Argument.eraseSpans := by
  induction args with
  | nil =>
    intro ts hts
    obtain rfl : ts = [] := by simpa using hts
    exact ⟨[], .noArguments, rfl⟩
  | cons a args ih =>
    intro ts hts
    have ha := h a List.mem_cons_self
    cases args with
    | nil =>
      obtain ⟨a', ha', herase⟩ := ha.reads ts (by simpa using hts)
      exact ⟨[a'], .lastArgument ha', by simp [herase]⟩
    | cons b args =>
      rw [List.map_cons, List.map_cons, List.intercalate_cons_cons, List.append_assoc] at hts
      obtain ⟨ts₁, comma, ts₂, rfl, hts₁, hcomma, hts₂⟩ := exists_eq_glued hts
      obtain ⟨a', ha', herase⟩ := ha.reads ts₁ hts₁
      obtain ⟨args', hargs', herases⟩ :=
        ih (fun a' ha' => h a' (List.mem_cons_of_mem a ha')) ts₂ hts₂
      exact ⟨a' :: args', .moreArguments ha' (Token.kind_of_bare hcomma) hargs',
        by rw [List.map_cons, List.map_cons, herase, herases]⟩

/-- The text of a list of arguments. -/
theorem commaSeparated_eq {args : List Argument} {part : Argument → List Char × List Bare} :
    Source.commaSeparated (args.map fun a => String.ofList (part a).1) =
      String.ofList ([',', ' '].intercalate (args.map fun a => (part a).1)) := by
  apply String.toList_injective
  simp [Source.commaSeparated, String.toList_intercalate, Function.comp_def]

/-! ## Calls -/

/-- Whatever is written in parentheses behind a callee that is written is read as a call
of it. -/
theorem written_enclosed {e : Expr} (callee : String) {us : List Bare} {args : List Argument}
    {part : Argument → List Char × List Bare}
    (hcallee : Fragment callee.toList us)
    (hargs : ∀ a ∈ args, ArgumentWrittenAs a (part a).1 (part a).2)
    (hrender : e.render = .ok (callee ++ "(" ++
      Source.commaSeparated (args.map fun a => String.ofList (part a).1) ++ ")"))
    (hreads : ∀ ts ts' args' (opening closing : Token), ts.map Token.bare = us →
      opening.kind = .openParen → closing.kind = .closeParen → Derives ts' (.arguments args') →
      args'.map Argument.eraseSpans = args.map Argument.eraseSpans →
      ∃ e', Derives (ts ++ opening :: (ts' ++ [closing])) (.expr e') ∧
        e'.eraseSpans = e.eraseSpans) : Written e := by
  have hinner : Fragment.Inner ([',', ' '].intercalate (args.map fun a => (part a).1))
      ([(.comma, ",")].intercalate (args.map fun a => (part a).2)) := by
    have hparts : ∀ p ∈ args.map part, Fragment p.1 p.2 := by
      intro p hp
      obtain ⟨a, ha, rfl⟩ := List.mem_map.mp hp
      exact (hargs a ha).fragment
    simpa only [List.map_map, Function.comp_def] using Fragment.separated hparts
  have hfragment := hcallee.enclosed '(' ')' .openParen .closeParen hinner (by decide)
    (by decide) rfl (by decide)
  refine ⟨_, _, ?_, hfragment, fun ts hts => ?_⟩
  · rw [hrender, commaSeparated_eq]
    congr 1
    apply String.toList_injective
    simp
  · obtain ⟨ts₁, opening, ts₂, closing, rfl, hts₁, hopening, hts₂, hclosing⟩ :=
      exists_eq_enclosed hts
    obtain ⟨args', hderives, herase⟩ := derives_arguments hargs ts₂ hts₂
    exact hreads ts₁ ts₂ args' opening closing hts₁ (Token.kind_of_bare hopening)
      (Token.kind_of_bare hclosing) hderives herase

/-- `print` with arguments is read back. -/
theorem written_print {objects : List Expr} {options : PrintOptions} {span : Span}
    (hobjects : ∀ e ∈ objects, Written e) (hoptions : ∀ k e, options k = some e → Written e)
    (hitems : ∀ e ∈ objects, e.valueType.fits (.plain .object) = true)
    (hfits : ∀ k e, options k = some e → e.valueType.fits k.type = true) :
    Written (.printWith objects options true span) := by
  have hargs : ∀ a ∈ printArguments objects options, ∃ p : List Char × List Bare,
      ArgumentWrittenAs a p.1 p.2 := by
    intro a ha
    rcases List.mem_append.mp ha with ha | ha
    · obtain ⟨e, he, rfl⟩ := List.mem_map.mp ha
      obtain ⟨cs, bs, h⟩ := written_positional (hobjects e he)
      exact ⟨(cs, bs), h⟩
    · obtain ⟨k, -, ha⟩ := List.mem_flatMap.mp ha
      obtain ⟨e, he, rfl⟩ := List.mem_map.mp ha
      obtain ⟨cs, bs, h⟩ := written_passedUnder (k.name, e) k.isName_name
        (hoptions k e (Option.mem_toList.mp he))
      exact ⟨(cs, bs), h⟩
  choose! part hpart using hargs
  refine written_enclosed "print" isName_print.fragment hpart
    (Expr.render_printWith fun a ha => (hpart a ha).renders) ?_
  intro ts ts' args' opening closing hts hopening hclosing hderives herase
  obtain ⟨t, rfl, ht⟩ := exists_eq_singleton hts
  have hmention := mention_print (Token.text_of_bare ht (by decide))
  have hcallee : Reading.calleeOf (Reading.mention t) closing.span.stop =
      .ok (.printWith [] .none false t.span) := by
    rw [hmention]
    rfl
  obtain ⟨bound, hbind, hbound⟩ := Expr.bindArguments_print closing.span.start t.span hitems hfits
  rw [Expr.emptyPrint_eq] at hbind
  obtain ⟨bound', hbind', hbound'⟩ := Expr.bindArguments_printWith_congr closing.span.start t.span
    herase rfl rfl hbind
  refine ⟨bound'.markInvoked, .call (.name (Token.kind_of_bare ht)) hopening hderives hclosing
    hcallee hbind', ?_⟩
  rw [Expr.eraseSpans_markInvoked, hbound', ← Expr.eraseSpans_markInvoked, hbound,
    Expr.eraseSpans_printWith, Expr.eraseSpans_printWith]

/-- A call is read back. -/
theorem written_call {func : Expr} {args : List Expr} {keywords : List (String × Expr)}
    {span : Span} (hfunc : Written func) (hcallee : func.valueType.fits (.plain .object) = true)
    (hcalled : func.isInvoked? ≠ some false) (hargs : ∀ e ∈ args, Written e)
    (hkeywords : ∀ passed ∈ keywords, Written passed.2)
    (hitems : ∀ e ∈ args, e.valueType.fits (.plain .object) = true)
    (hparts : ∀ passed ∈ keywords, passed.2.valueType.fits (.plain .object) = true)
    (hnames : ∀ passed ∈ keywords, IsName passed.1)
    (hdistinct : (keywords.map Prod.fst).Nodup) :
    Written (.callWith func args keywords true span) := by
  have hpassed : ∀ a ∈ callArguments args keywords, ∃ p : List Char × List Bare,
      ArgumentWrittenAs a p.1 p.2 := by
    intro a ha
    rcases List.mem_append.mp ha with ha | ha
    · obtain ⟨e, he, rfl⟩ := List.mem_map.mp ha
      obtain ⟨cs, bs, h⟩ := written_positional (hargs e he)
      exact ⟨(cs, bs), h⟩
    · obtain ⟨passed, hmem, rfl⟩ := List.mem_map.mp ha
      obtain ⟨cs, bs, h⟩ := written_passedUnder passed (hnames passed hmem) (hkeywords passed hmem)
      exact ⟨(cs, bs), h⟩
  choose! part hpart using hpassed
  obtain ⟨cs, us, hfunc⟩ := hfunc
  have hfragment : Fragment (String.ofList cs).toList us := by
    rw [String.toList_ofList]
    exact hfunc.fragment
  refine written_enclosed (String.ofList cs) hfragment hpart
    (Expr.render_callWith hfunc.renders fun a ha => (hpart a ha).renders) ?_
  intro ts ts' args' opening closing hts hopening hclosing hderives herase
  obtain ⟨func', hfunc', herases⟩ := hfunc.reads ts hts
  -- the callee that was read back has not become one that takes the arguments itself
  have hcalled' : func'.isInvoked? ≠ some false := by
    rwa [← Expr.isInvoked?_eraseSpans, herases, Expr.isInvoked?_eraseSpans]
  have hcallee' : Reading.calleeOf func' closing.span.stop =
      .ok (.callWith func' [] [] false ⟨func'.span.start, closing.span.stop⟩) := by
    have hfits : func'.valueType.fits (.plain .object) = true := by
      rwa [Expr.valueType_of_eraseSpans herases]
    have hcall : func'.callOf ⟨func'.span.start, closing.span.stop⟩ =
        .ok (.callWith func' [] [] false ⟨func'.span.start, closing.span.stop⟩) :=
      Expr.callOf_eq_ok_iff.mpr ⟨hfits, rfl⟩
    rw [Reading.calleeOf, if_neg (by simpa using hcalled'), hcall]
  obtain ⟨bound, hbind, hbound⟩ := Expr.bindArguments_call closing.span.start func span hitems
    hparts hdistinct
  obtain ⟨bound', hbind', hbound'⟩ := Expr.bindArguments_callWith_congr closing.span.start
    ⟨func'.span.start, closing.span.stop⟩ herase herases rfl rfl hbind
  refine ⟨bound'.markInvoked, .call hfunc' hopening hderives hclosing hcallee' hbind', ?_⟩
  rw [Expr.eraseSpans_markInvoked, hbound', ← Expr.eraseSpans_markInvoked, hbound]

/-- **Every settled expression is written down and read back.** -/
theorem Settled.written {e : Expr} (h : Settled e) : Written e := by
  induction h with
  | literal writable => exact written_literal writable
  | name isName isVariable => exact written_name isName isVariable
  | mention => exact written_mention
  | print items parts fits ihItems ihParts =>
    exact written_print ihItems ihParts (fun e he => (items e he).fits_object) fits
  | call callee isCalled items parts names distinct ihCallee ihItems ihParts =>
    exact written_call ihCallee callee.fits_object isCalled ihItems ihParts
      (fun e he => (items e he).fits_object) (fun p hp => (parts p hp).fits_object) names distinct

end SlotTree

import SlotTree.Proofs.Reading.Sound

/-!
# Every phrase is read

The converse of `SlotTree.Proofs.Reading.Sound`: where a phrase of the grammar stands
ahead of a reader, and what follows cannot belong to it, the reader passes exactly that
phrase and answers its denotation.

A phrase may be read as the beginning of a longer one, when a call or the items of a list
type follow.  So the statements by induction do not say that reading stops behind the
phrase.  They say that it *arrives* there: reading from the start of the phrase comes to
the same as the loop over what follows, started behind the phrase with its denotation
(`ArrivesType`, `Phrase.Arrives`).  Where nothing follows the loop stops at once.

The bounds on nesting and on the rounds of the loops are taken from the number of tokens
that are left, and the inductions show that they are never used up: a phrase of so many
tokens needs at most so many levels, and a loop that arrives somewhere still has more
rounds than there are tokens left.
-/

namespace SlotTree
namespace Reading

open Parse

/-! ## Annotations -/

/-- The loop over what follows a type stops where nothing can. -/
theorem followType_stop {item : Parse Ty} {rounds : Nat} {type : Ty} {c : Cursor}
    (hrounds : 0 < rounds) (hstop : Grammar.script.typePower? c.kind = none) :
    followType .default item .lowest rounds type c = (.ok type, c) := by
  obtain ⟨rounds, rfl⟩ := Nat.exists_eq_succ_of_ne_zero (Nat.ne_of_gt hrounds)
  rw [followType, look_bind_run]
  simp only [grammar_default, hstop]
  rfl

/-- Reading a type from the start of the tokens arrives behind them with the given type. -/
def ArrivesType (ts : List Token) (type : Ty) : Prop :=
  ∀ {levels : Nat} {c : Cursor} {rest : List Token}, ts.length ≤ levels + 1 →
    c.ahead = ts ++ rest →
    ∃ rounds, rest.length < rounds ∧
      typeUpTo .default (levels + 1) .lowest c =
        followType .default (typeUpTo .default levels .lowest) .lowest rounds type
          (c.skip ts.length)

/-- An arrival where nothing follows is a success. -/
theorem ArrivesType.read {ts rest : List Token} {type : Ty} (h : ArrivesType ts type)
    {levels : Nat} {c : Cursor} (hpos : 0 < ts.length) (hlevels : ts.length ≤ levels)
    (hahead : c.ahead = ts ++ rest)
    (hstop : Grammar.script.typePower? (c.skip ts.length).kind = none) :
    typeUpTo .default levels .lowest c = (.ok type, c.skip ts.length) := by
  obtain ⟨levels, rfl⟩ := Nat.exists_eq_succ_of_ne_zero (by omega : levels ≠ 0)
  obtain ⟨rounds, hrounds, hread⟩ := h hlevels hahead
  rw [hread, followType_stop (by omega) hstop]

/-- A type of one token is opened by that token and nothing else. -/
theorem arrivesType_of_openType {t : Token} {type : Ty}
    (hopen : ∀ {c : Cursor} {rest : List Token}, c.ahead = t :: rest →
      openType .default c = (.ok type, c.advance)) : ArrivesType [t] type := by
  intro levels c rest _ hahead
  refine ⟨c.advance.remaining, ?_, ?_⟩
  · rw [Cursor.remaining, Cursor.ahead_advance, hahead]
    simp
  · rw [typeUpTo, bind_run_of_ok (hopen hahead), look_bind_run]
    rfl

theorem DerivesType.nonempty {ts : List Token} {type : Ty} (h : DerivesType ts type) :
    0 < ts.length := by
  cases h with
  | symbol _ _ _ | noneType _ => simp
  | subscript _ _ _ _ _ =>
    rw [List.length_append, List.length_cons]
    omega

/-- The items in brackets are read behind a list type. -/
theorem subscriptType_run {item : Parse Ty} {left type : Ty} {us rest : List Token}
    {opening closing : Token} {c : Cursor} (hleft : left.head = .list)
    (hopen : opening.kind = .openBracket) (hclose : closing.kind = .closeBracket)
    (hahead : c.ahead = opening :: (us ++ closing :: rest))
    (hitem : item c.advance = (.ok type, c.advance.skip us.length)) :
    subscriptType item left c = (.ok (.list type), c.skip (us.length + 2)) := by
  have hahead' : (c.advance.skip us.length).ahead = closing :: rest := by
    rw [Cursor.ahead_skip, Cursor.ahead_advance, hahead, List.drop_one, List.tail_cons,
      List.drop_left]
  rw [subscriptType, bind_run_of_ok (expect_run hahead hopen), if_neg (by simp [hleft]),
    bind_run_of_ok hitem, bind_run_of_ok (expect_run hahead' hclose), pure_run,
    Cursor.advance_skip]
  rfl

theorem DerivesType.arrives {ts : List Token} {type : Ty} (h : DerivesType ts type) :
    ArrivesType ts type := by
  induction h with
  | symbol kind builtin isType =>
    refine arrivesType_of_openType fun hahead => ?_
    rw [openType, look_bind_run, Cursor.kind_of_ahead hahead, kind]
    show symbolType .default _ = _
    rw [symbolType, bind_run_of_ok (expect_run hahead kind)]
    simp only [builtins_default, builtin, isType]
    rfl
  | noneType kind =>
    refine arrivesType_of_openType fun hahead => ?_
    rw [openType, look_bind_run, Cursor.kind_of_ahead hahead, kind]
    show Reading.noneType _ = _
    rw [Reading.noneType, bind_run_of_ok (expect_run hahead kind), pure_run]
  | @subscript ts us opening closing left item whole isList openKind inner closeKind ih₁ ih₂ =>
    intro levels c rest hlevels hahead
    have hts := whole.nonempty
    have hus := inner.nonempty
    simp only [List.length_append, List.length_cons, List.length_nil] at hlevels
    have hsplit : c.ahead = ts ++ (opening :: (us ++ closing :: rest)) := by
      rw [hahead]
      simp
    obtain ⟨rounds, hrounds, hread⟩ := ih₁ (by omega : ts.length ≤ levels + 1) hsplit
    simp only [List.length_append, List.length_cons] at hrounds
    obtain ⟨rounds, rfl⟩ := Nat.exists_eq_succ_of_ne_zero (by omega : rounds ≠ 0)
    refine ⟨rounds, by omega, ?_⟩
    have hthere : (c.skip ts.length).ahead = opening :: (us ++ closing :: rest) := by
      rw [Cursor.ahead_skip, hsplit, List.drop_left]
    have hitem : typeUpTo .default levels .lowest (c.skip ts.length).advance =
        (.ok item, (c.skip ts.length).advance.skip us.length) := by
      have hinside : (c.skip ts.length).advance.ahead = us ++ closing :: rest := by
        rw [Cursor.ahead_advance, hthere]
        rfl
      have hbehind : ((c.skip ts.length).advance.skip us.length).ahead = closing :: rest := by
        rw [Cursor.ahead_skip, hinside, List.drop_left]
      refine ArrivesType.read ih₂ hus (by omega) hinside ?_
      rw [Cursor.kind_of_ahead hbehind, closeKind]
      rfl
    rw [hread, followType, look_bind_run, Cursor.kind_of_ahead hthere, openKind]
    show (subscriptType _ left >>= _) _ = _
    rw [bind_run_of_ok (subscriptType_run isList openKind closeKind hthere hitem),
      Cursor.skip_skip]
    simp [Nat.add_assoc]

/-- **An annotation is read whole**, where nothing that could belong to it follows. -/
theorem DerivesType.type_run {ts rest : List Token} {type : Ty} (h : DerivesType ts type)
    {c : Cursor} (hahead : c.ahead = ts ++ rest)
    (hstop : Grammar.script.typePower? (c.skip ts.length).kind = none) :
    Reading.type .default .lowest c = (.ok type, c.skip ts.length) := by
  refine ArrivesType.read h.arrives h.nonempty ?_ hahead hstop
  rw [Cursor.remaining, hahead, List.length_append]
  omega

/-! ## Expressions and arguments -/

/-- What follows an expression cannot be one more part of a string constant. -/
def EndsText (rest : List Token) : Prop := ∀ t ∈ rest.head?, t.kind.isText = false

theorem EndsText.cons {t : Token} {rest : List Token} (h : t.kind.isText = false) :
    EndsText (t :: rest) := by
  intro u hu
  obtain rfl : t = u := by simpa using hu
  exact h

/-- What follows an argument: a comma, or the parenthesis that closes the list. -/
def EndsArgument (rest : List Token) : Prop :=
  ∃ t us, rest = t :: us ∧ (t.kind = .comma ∨ t.kind = .closeParen)

theorem EndsArgument.endsText {rest : List Token} (h : EndsArgument rest) : EndsText rest := by
  obtain ⟨t, us, rfl, ht | ht⟩ := h
  · exact .cons (by rw [ht]; rfl)
  · exact .cons (by rw [ht]; rfl)

/-- Reading from the start of the tokens arrives behind them with the given denotation.
An expression is read as the start of a longer one; arguments are read to their end. -/
def Phrase.Arrives (ts : List Token) : Phrase → Prop
  | .expr e => ∀ {levels : Nat} {c : Cursor} {rest : List Token}, ts.length ≤ levels + 1 →
      c.ahead = ts ++ rest → EndsText rest →
      ∃ rounds, rest.length < rounds ∧
        exprUpTo .default (levels + 1) .lowest c =
          followExpr .default (exprUpTo .default levels .lowest) .lowest rounds e
            (c.skip ts.length)
  | .argument a => ∀ {levels : Nat} {c : Cursor} {rest : List Token}, ts.length ≤ levels →
      c.ahead = ts ++ rest → EndsArgument rest →
      Reading.argument (exprUpTo .default levels .lowest) c = (.ok a, c.skip ts.length)
  | .arguments args => ∀ {levels rounds : Nat} {c : Cursor} {closing : Token}
      {rest : List Token}, ts.length ≤ levels → ts.length < rounds →
      c.ahead = ts ++ closing :: rest → closing.kind = .closeParen →
      Reading.arguments (exprUpTo .default levels .lowest) rounds c = (.ok args, c.skip ts.length)

/-- The loop over what follows an expression stops where nothing can. -/
theorem followExpr_stop {inner : Parse Expr} {rounds : Nat} {e : Expr} {c : Cursor}
    (hrounds : 0 < rounds) (hstop : Grammar.script.power? c.kind = none) :
    followExpr .default inner .lowest rounds e c = (.ok e, c) := by
  obtain ⟨rounds, rfl⟩ := Nat.exists_eq_succ_of_ne_zero (Nat.ne_of_gt hrounds)
  rw [followExpr, look_bind_run]
  simp only [grammar_default, hstop]
  rfl

/-- An arrival where nothing follows is a success. -/
theorem Phrase.Arrives.read {ts rest : List Token} {e : Expr} (h : (Phrase.expr e).Arrives ts)
    {levels : Nat} {c : Cursor} (hpos : 0 < ts.length) (hlevels : ts.length ≤ levels)
    (hahead : c.ahead = ts ++ rest) (htext : EndsText rest)
    (hstop : Grammar.script.power? (c.skip ts.length).kind = none) :
    exprUpTo .default levels .lowest c = (.ok e, c.skip ts.length) := by
  obtain ⟨levels, rfl⟩ := Nat.exists_eq_succ_of_ne_zero (by omega : levels ≠ 0)
  obtain ⟨rounds, hrounds, hread⟩ := h hlevels hahead htext
  rw [hread, followExpr_stop (by omega) hstop]

/-- An atom that is opened by its first token arrives behind it. -/
theorem arrives_of_openExpr {ts : List Token} {e : Expr}
    (hopen : ∀ {levels : Nat} {c : Cursor} {rest : List Token}, ts.length ≤ levels + 1 →
      c.ahead = ts ++ rest → EndsText rest →
      openExpr .default (exprUpTo .default levels .lowest) c = (.ok e, c.skip ts.length)) :
    (Phrase.expr e).Arrives ts := by
  intro levels c rest hlevels hahead htext
  refine ⟨(c.skip ts.length).remaining, ?_, ?_⟩
  · rw [Cursor.remaining, Cursor.ahead_skip, hahead, List.drop_left]
    omega
  · rw [exprUpTo, bind_run_of_ok (hopen hlevels hahead htext), look_bind_run]

theorem Derives.nonempty {ts : List Token} {e : Expr} (h : Derives ts (.expr e)) :
    0 < ts.length := by
  obtain ⟨t, us, rfl, -⟩ := h.opens
  simp

/-- A constant of one token is read. -/
theorem Constant.openExpr_run {t : Token} {v : Literal} (h : Constant t v) {inner : Parse Expr}
    {c : Cursor} {rest : List Token} (hahead : c.ahead = t :: rest) :
    openExpr .default inner c = (.ok (.ofLiteral v t.span), c.advance) := by
  rw [openExpr, look_bind_run, Cursor.kind_of_ahead hahead]
  cases h with
  | true_ kind | false_ kind | none_ kind =>
    rw [kind]
    show constant c = _
    rw [constant, look_bind_run, Cursor.kind_of_ahead hahead, kind]
    simp only [advance_bind_run, Cursor.current_of_ahead hahead]
    rfl
  | number kind value =>
    rw [kind]
    show constant c = _
    rw [constant, look_bind_run, Cursor.kind_of_ahead hahead, kind]
    show Reading.number c = _
    rw [Reading.number, advance_bind_run, Cursor.current_of_ahead hahead]
    simp only [value]
    rfl

/-- Adjacent plain string literals are read as one constant. -/
theorem text_run {t : Token} {ts rest : List Token} (kinds : ∀ u ∈ t :: ts, u.kind = .string)
    {c : Cursor} (hahead : c.ahead = (t :: ts) ++ rest) (hrest : EndsText rest) :
    text c = (.ok (.ofLiteral (.str (String.join ((t :: ts).map Token.text))) (stretch t ts)),
      c.skip (t :: ts).length) := by
  have htake : c.ahead.takeWhile (fun u => u.kind.isText) = t :: ts := by
    rw [hahead, List.takeWhile_append_of_pos fun u hu => by rw [kinds u hu]; rfl]
    cases rest with
    | nil => simp
    | cons r rest =>
      rw [List.takeWhile_cons_of_neg (by simp [hrest r rfl]), List.append_nil]
  have hbytes : (t :: ts).any (fun u => u.kind == .bytes) = false := by
    rw [List.any_eq_false]
    intro u hu
    rw [kinds u hu]
    decide
  have hformat : (t :: ts).any (fun u => u.kind == .formatString) = false := by
    rw [List.any_eq_false]
    intro u hu
    rw [kinds u hu]
    decide
  have hstart : c.position = t.span.start := by
    rw [Cursor.position, Cursor.current_of_ahead hahead]
  rw [text, look_bind_run, bind_run_of_ok (takeWhile_run _ c), htake]
  simp only [hbytes, hformat, Bool.false_and, Bool.false_eq_true, if_false, hstart,
    List.getLast?_eq_some_getLast (List.cons_ne_nil t ts), Option.map_some, Option.getD_some]
  rfl

theorem name_run {t : Token} {rest : List Token} {c : Cursor} (kind : t.kind = .identifier)
    (hahead : c.ahead = t :: rest) : name .default c = (.ok (mention t), c.advance) := by
  rw [name, bind_run_of_ok (expect_run hahead kind), mention]
  cases hfind : Registry.default.find? t.text <;> simp only [builtins_default, hfind] <;> rfl

theorem group_run {inner : Parse Expr} {opening closing : Token} {ts rest : List Token} {e : Expr}
    {c : Cursor} (hopen : opening.kind = .openParen) (hclose : closing.kind = .closeParen)
    (hts : ∃ t us, ts = t :: us ∧ opensExpr t.kind = true)
    (hahead : c.ahead = opening :: (ts ++ closing :: rest))
    (hinner : inner c.advance = (.ok e, c.advance.skip ts.length)) :
    group inner c = (.ok e, c.skip (ts.length + 2)) := by
  have hinside : c.advance.ahead = ts ++ closing :: rest := by
    rw [Cursor.ahead_advance, hahead]
    rfl
  have hbehind : (c.advance.skip ts.length).ahead = closing :: rest := by
    rw [Cursor.ahead_skip, hinside, List.drop_left]
  have hfirst : (c.advance.kind == .closeParen) = false := by
    obtain ⟨t, us, rfl, ht⟩ := hts
    rw [Cursor.kind_of_ahead hinside]
    cases hk : t.kind <;> simp_all [opensExpr]
  rw [group, bind_run_of_ok (expect_run hahead hopen), look_bind_run, hfirst]
  simp only [Bool.false_eq_true, if_false]
  rw [bind_run_of_ok hinner, look_bind_run, Cursor.kind_of_ahead hbehind, hclose]
  show (expect .closeParen >>= _) _ = _
  rw [bind_run_of_ok (expect_run hbehind hclose), pure_run, Cursor.advance_skip]
  rfl

/-- A token that ends an argument binds nothing. -/
theorem power?_of_endsArgument {t : Token} (h : t.kind = .comma ∨ t.kind = .closeParen) :
    Grammar.script.power? t.kind = none := by
  rcases h with h | h <;> rw [h] <;> rfl

/-- A positional argument is read, because it does not look like a keyword argument. -/
theorem positional_run {ts rest : List Token} {e : Expr} (h : Derives ts (.expr e))
    {inner : Parse Expr} {c : Cursor} (hahead : c.ahead = ts ++ rest) (hrest : EndsArgument rest)
    (hinner : inner c = (.ok e, c.skip ts.length)) :
    argument inner c = (.ok ⟨none, e⟩, c.skip ts.length) := by
  obtain ⟨t, us, rfl, ht⟩ := h.opens
  obtain ⟨r, rs, rfl, hr⟩ := hrest
  have hbehind : (c.skip (t :: us).length).ahead = r :: rs := by
    rw [Cursor.ahead_skip, hahead, List.drop_left]
  have hnext : t.kind = .identifier → (c.peek 1 == .assignment) = false := by
    intro hname
    cases us with
    | nil =>
      rw [Cursor.peek_one_of_ahead hahead]
      rcases hr with hr | hr <;> simp [hr]
    | cons u vs =>
      rw [Cursor.peek_one_of_ahead hahead]
      simpa using h.unnamed t u vs rfl hname
  have hfor : ((c.skip (t :: us).length).kind == .reserved .for_) = false := by
    rw [Cursor.kind_of_ahead hbehind]
    rcases hr with hr | hr <;> simp [hr]
  have htail : (do
      let value ← inner
      if (← look Cursor.kind) == .reserved .for_ then
        fail (notSupported "GeneratorExp" value.span.start)
      else pure ⟨none, value⟩ : Parse Argument) c = (.ok ⟨none, e⟩, c.skip (t :: us).length) := by
    rw [bind_run_of_ok hinner, look_bind_run, hfor]
    rfl
  rw [argument, look_bind_run, id_eq, Cursor.kind_of_ahead hahead]
  cases hk : t.kind with
  | identifier =>
    show (if (TokenKind.identifier == TokenKind.identifier &&
      c.peek 1 == TokenKind.assignment) = true then (_ : Parse Argument) else _) c = _
    rw [hnext hk]
    exact htail
  | reserved w => cases w <;> exact htail
  | number | string | openParen => exact htail
  | _ => simp [hk, opensExpr] at ht

/-- A keyword argument is read. -/
theorem keyword_run {target equals : Token} {ts rest : List Token} {e : Expr}
    {inner : Parse Expr} {c : Cursor} (hkind : target.kind = .identifier)
    (hequals : equals.kind = .assignment) (hahead : c.ahead = target :: equals :: (ts ++ rest))
    (hinner : inner c.advance.advance = (.ok e, c.advance.advance.skip ts.length)) :
    argument inner c = (.ok ⟨some target.text, e⟩, c.skip (target :: equals :: ts).length) := by
  have hpeek : c.peek 1 = .assignment := by rw [Cursor.peek_one_of_ahead hahead, hequals]
  have hc : c.kind = .identifier := by rw [Cursor.kind_of_ahead hahead, hkind]
  rw [argument, look_bind_run]
  simp only [id_eq, hc, hpeek, beq_self_eq_true, Bool.and_true, if_true]
  rw [advance_bind_run, advance_bind_run, bind_run_of_ok hinner, pure_run,
    Cursor.current_of_ahead hahead]
  rfl

/-- A call is read behind the expression that is called. -/
theorem call_run {inner : Parse Expr} {left callee bound : Expr} {args : List Argument}
    {opening closing : Token} {us rest : List Token} {c : Cursor}
    (hopen : opening.kind = .openParen) (hclose : closing.kind = .closeParen)
    (hahead : c.ahead = opening :: (us ++ closing :: rest))
    (hargs : arguments inner c.advance.remaining c.advance = (.ok args, c.advance.skip us.length))
    (hcallee : calleeOf left closing.span.stop = .ok callee)
    (hbound : bindArguments closing.span.start callee args = .ok bound) :
    call inner left c = (.ok bound.markInvoked, c.skip (us.length + 2)) := by
  have hbehind : (c.advance.skip us.length).ahead = closing :: rest := by
    rw [Cursor.ahead_skip, Cursor.ahead_advance, hahead, List.drop_one, List.tail_cons,
      List.drop_left]
  rw [call, bind_run_of_ok (expect_run hahead hopen), look_bind_run, bind_run_of_ok hargs,
    bind_run_of_ok (expect_run hbehind hclose), hcallee]
  show (lift (bindArguments closing.span.start callee args) >>= _) _ = _
  rw [hbound]
  show (Except.ok bound.markInvoked, _) = _
  rw [Cursor.advance_skip]
  rfl

/-- An expression among arguments is read to its end. -/
theorem Phrase.Arrives.read_argument {ts rest : List Token} {e : Expr}
    (h : (Phrase.expr e).Arrives ts) {levels : Nat} {c : Cursor} (hpos : 0 < ts.length)
    (hlevels : ts.length ≤ levels) (hahead : c.ahead = ts ++ rest) (hrest : EndsArgument rest) :
    exprUpTo .default levels .lowest c = (.ok e, c.skip ts.length) := by
  refine h.read hpos hlevels hahead hrest.endsText ?_
  obtain ⟨t, us, rfl, ht⟩ := hrest
  have hbehind : (c.skip ts.length).ahead = t :: us := by
    rw [Cursor.ahead_skip, hahead, List.drop_left]
  rw [Cursor.kind_of_ahead hbehind]
  exact power?_of_endsArgument ht

/-- The call that follows an expression is read in one round of the loop. -/
theorem followExpr_call {inner : Parse Expr} {rounds : Nat} {left e : Expr} {c c' : Cursor}
    {opening : Token} {rest : List Token} (hahead : c.ahead = opening :: rest)
    (hopen : opening.kind = .openParen) (hcall : call inner left c = (.ok e, c')) :
    followExpr .default inner .lowest (rounds + 1) left c =
      followExpr .default inner .lowest rounds e c' := by
  rw [followExpr, look_bind_run, Cursor.kind_of_ahead hahead, hopen]
  show (call inner left >>= _) _ = _
  rw [bind_run_of_ok hcall]

/-- **Every phrase is read.** -/
theorem Derives.arrives {ts : List Token} {p : Phrase} (h : Derives ts p) : p.Arrives ts := by
  induction h with
  | constant value => exact arrives_of_openExpr fun _ hahead _ => value.openExpr_run hahead
  | text kinds =>
    refine arrives_of_openExpr fun _ hahead hrest => ?_
    rw [openExpr, look_bind_run, Cursor.kind_of_ahead hahead, kinds _ List.mem_cons_self]
    show Reading.constant _ = _
    rw [Reading.constant, look_bind_run, Cursor.kind_of_ahead hahead,
      kinds _ List.mem_cons_self]
    exact text_run kinds hahead hrest
  | name kind =>
    refine arrives_of_openExpr fun _ hahead _ => ?_
    rw [openExpr, look_bind_run, Cursor.kind_of_ahead hahead, kind]
    exact name_run kind hahead
  | @group ts opening closing e openKind inner closeKind ih =>
    refine arrives_of_openExpr fun {levels c rest} hlevels hahead _ => ?_
    have hsplit : c.ahead = opening :: (ts ++ closing :: rest) := by
      rw [hahead]
      simp
    simp only [List.length_cons, List.length_append, List.length_nil] at hlevels
    rw [openExpr, look_bind_run, Cursor.kind_of_ahead hsplit, openKind]
    have hinner : exprUpTo .default levels .lowest c.advance =
        (.ok e, c.advance.skip ts.length) := by
      have hinside : c.advance.ahead = ts ++ closing :: rest := by
        rw [Cursor.ahead_advance, hsplit]
        rfl
      exact Phrase.Arrives.read_argument ih inner.nonempty (by omega) hinside
        ⟨closing, rest, rfl, Or.inr closeKind⟩
    rw [List.length_cons, List.length_append]
    exact group_run openKind closeKind inner.opens hsplit hinner
  | @call ts us opening closing left callee bound args whole openKind inner closeKind called
      binds ih₁ ih₂ =>
    intro levels c rest hlevels hahead hrest
    have hts := whole.nonempty
    simp only [List.length_append, List.length_cons, List.length_nil] at hlevels
    have hsplit : c.ahead = ts ++ (opening :: (us ++ closing :: rest)) := by
      rw [hahead]
      simp
    obtain ⟨rounds, hrounds, hread⟩ :=
      ih₁ (by omega : ts.length ≤ levels + 1) hsplit (.cons (by rw [openKind]; rfl))
    simp only [List.length_append, List.length_cons] at hrounds
    obtain ⟨rounds, rfl⟩ := Nat.exists_eq_succ_of_ne_zero (by omega : rounds ≠ 0)
    refine ⟨rounds, by omega, ?_⟩
    have hthere : (c.skip ts.length).ahead = opening :: (us ++ closing :: rest) := by
      rw [Cursor.ahead_skip, hsplit, List.drop_left]
    have hinside : (c.skip ts.length).advance.ahead = us ++ closing :: rest := by
      rw [Cursor.ahead_advance, hthere]
      rfl
    have hargs : arguments (exprUpTo .default levels .lowest)
        (c.skip ts.length).advance.remaining (c.skip ts.length).advance =
          (.ok args, (c.skip ts.length).advance.skip us.length) := by
      refine ih₂ (by omega) ?_ hinside closeKind
      rw [Cursor.remaining, hinside, List.length_append, List.length_cons]
      omega
    rw [hread, followExpr_call hthere openKind
      (call_run openKind closeKind hthere hargs called binds), Cursor.skip_skip]
    simp [Nat.add_assoc]
  | positional value ih =>
    intro levels c rest hlevels hahead hrest
    exact positional_run value hahead hrest
      (Phrase.Arrives.read_argument ih value.nonempty hlevels hahead hrest)
  | @keyword ts target equals e kind equalsKind value ih =>
    intro levels c rest hlevels hahead hrest
    simp only [List.length_cons] at hlevels
    have hvalue : c.advance.advance.ahead = ts ++ rest := by
      rw [Cursor.ahead_advance, Cursor.ahead_advance, hahead]
      rfl
    exact keyword_run kind equalsKind hahead
      (Phrase.Arrives.read_argument ih value.nonempty (by omega) hvalue hrest)
  | noArguments =>
    intro levels rounds c closing rest _ hrounds hahead hclose
    obtain ⟨rounds, rfl⟩ := Nat.exists_eq_succ_of_ne_zero (Nat.ne_of_gt hrounds)
    rw [arguments, look_bind_run, Cursor.kind_of_ahead hahead, hclose]
    rfl
  | @lastArgument ts a last ih =>
    intro levels rounds c closing rest hlevels hrounds hahead hclose
    obtain ⟨rounds, rfl⟩ := Nat.exists_eq_succ_of_ne_zero (by omega : rounds ≠ 0)
    obtain ⟨t, us, rfl, ht⟩ := last.opens
    have hbehind : (c.skip (t :: us).length).ahead = closing :: rest := by
      rw [Cursor.ahead_skip, hahead, List.drop_left]
    have hfirst : (c.kind == .closeParen) = false := by
      rw [Cursor.kind_of_ahead hahead]
      cases hk : t.kind <;> simp_all [opensExpr]
    rw [arguments, look_bind_run, hfirst]
    simp only [Bool.false_eq_true, if_false]
    rw [bind_run_of_ok (ih hlevels hahead ⟨closing, rest, rfl, Or.inr hclose⟩), look_bind_run,
      Cursor.kind_of_ahead hbehind, hclose]
    rfl
  | @moreArguments ts us comma a args first commaKind more ih₁ ih₂ =>
    intro levels rounds c closing rest hlevels hrounds hahead hclose
    obtain ⟨rounds, rfl⟩ := Nat.exists_eq_succ_of_ne_zero (by omega : rounds ≠ 0)
    obtain ⟨t, ts, rfl, ht⟩ := first.opens
    simp only [List.length_append, List.length_cons] at hlevels hrounds
    have hsplit : c.ahead = (t :: ts) ++ (comma :: (us ++ closing :: rest)) := by
      rw [hahead]
      simp
    have hbehind : (c.skip (t :: ts).length).ahead = comma :: (us ++ closing :: rest) := by
      rw [Cursor.ahead_skip, hsplit, List.drop_left]
    have hafter : (c.skip (t :: ts).length).advance.ahead = us ++ closing :: rest := by
      rw [Cursor.ahead_advance, hbehind]
      rfl
    have hfirst : (c.kind == .closeParen) = false := by
      rw [Cursor.kind_of_ahead hsplit]
      cases hk : t.kind <;> simp_all [opensExpr]
    have hlevels' : (t :: ts).length ≤ levels := by
      rw [List.length_cons]
      omega
    have hread := ih₁ hlevels' hsplit ⟨comma, _, rfl, Or.inl commaKind⟩
    rw [arguments, look_bind_run, hfirst]
    simp only [Bool.false_eq_true, if_false]
    rw [bind_run_of_ok hread, look_bind_run, Cursor.kind_of_ahead hbehind, commaKind]
    show (advance >>= _) _ = _
    rw [advance_bind_run, bind_run_of_ok (ih₂ (by omega) (by omega) hafter hclose), pure_run,
      Cursor.advance_skip, Cursor.skip_skip]
    simp [Nat.add_comm, Nat.add_left_comm]

/-! ## Statements -/

/-- What follows a statement: a line end, a semicolon, or the end of the list. -/
def EndsStmt (rest : List Token) : Prop := ∀ t ∈ rest.head?, t.kind.isLineEnd = true

/-- A cursor behind a statement stands in front of an end. -/
theorem EndsStmt.isLineEnd_kind {c : Cursor} (h : EndsStmt c.ahead) :
    c.kind.isLineEnd = true := by
  cases hc : c.ahead with
  | nil =>
    rw [Cursor.kind_of_ahead_nil hc]
    rfl
  | cons t ts =>
    rw [Cursor.kind_of_ahead hc]
    exact h t (by rw [hc]; rfl)

theorem EndsStmt.endsText {rest : List Token} (h : EndsStmt rest) : EndsText rest := by
  intro t ht
  have hend := h t ht
  cases hk : t.kind <;> simp_all [TokenKind.isLineEnd, TokenKind.isText]

/-- An end binds nothing before it, neither an expression nor a type, and is no comma and
no equals sign. -/
theorem stops_of_isLineEnd {kind : TokenKind} (h : kind.isLineEnd = true) :
    Grammar.script.power? kind = none ∧ Grammar.script.typePower? kind = none ∧
      kind ≠ .comma ∧ kind ≠ .assignment := by
  cases kind <;> first | exact ⟨rfl, rfl, by decide, by decide⟩ | simp [TokenKind.isLineEnd] at h

theorem valueExpr_run {ts rest : List Token} {e : Expr} (h : Derives ts (.expr e)) {c : Cursor}
    (hahead : c.ahead = ts ++ rest) (hrest : EndsStmt rest) :
    valueExpr .default c = (.ok e, c.skip ts.length) := by
  have hbehind : (c.skip ts.length).ahead = rest := by
    rw [Cursor.ahead_skip, hahead, List.drop_left]
  obtain ⟨hpower, -, hcomma, -⟩ :=
    stops_of_isLineEnd (EndsStmt.isLineEnd_kind (c := c.skip ts.length) (by rwa [hbehind]))
  have hread : expr .default .lowest c = (.ok e, c.skip ts.length) := by
    refine Phrase.Arrives.read h.arrives h.nonempty ?_ hahead hrest.endsText hpower
    rw [Cursor.remaining, hahead, List.length_append]
    omega
  rw [valueExpr, bind_run_of_ok hread, look_bind_run, if_neg (by simpa using hcomma)]
  rfl

theorem typeExpr_run {first : Token} {more rest : List Token} {type : Ty}
    (h : DerivesType (first :: more) type) {c : Cursor}
    (hahead : c.ahead = (first :: more) ++ rest)
    (hstop : Grammar.script.typePower? (c.skip (first :: more).length).kind = none) :
    typeExpr .default c = (.ok (type, stretch first more), c.skip (first :: more).length) := by
  rw [typeExpr, look_bind_run, bind_run_of_ok (h.type_run hahead hstop), look_bind_run, pure_run,
    Cursor.previousEnd_skip (List.cons_ne_nil _ _) hahead, Cursor.position,
    Cursor.current_of_ahead hahead]
  rfl

/-- A line that starts with a name and a colon is annotated. -/
theorem classifyFrom_annotated {target colon : Token} {rest : List Token}
    (kind : target.kind = .identifier) (colonKind : colon.kind = .colon) :
    classifyFrom 0 false (target :: colon :: rest) = .annotated := by
  rw [classifyFrom_of_not_noticed (by rw [kind]; rfl), classifyFrom, colonKind]
  rfl

/-- A line that holds an expression and then ends is an expression. -/
theorem classifyFrom_expression {ts rest : List Token} {e : Expr} (h : Derives ts (.expr e))
    (hrest : EndsStmt rest) : classifyFrom 0 false (ts ++ rest) = .expression := by
  rw [h.balanced 0 false rest]
  cases rest with
  | nil => rfl
  | cons t rest =>
    have hend := hrest t rfl
    rw [classifyFrom]
    cases hk : t.kind <;>
      first | rfl | simp [hk, TokenKind.isLineEnd] at hend

/-- A name and a colon are passed at the start of an annotated statement. -/
theorem annotatedStmt_run {target colon : Token} {rest : List Token} {c : Cursor}
    (kind : target.kind = .identifier) (colonKind : colon.kind = .colon)
    (hahead : c.ahead = target :: colon :: rest) :
    annotatedStmt .default c = (do
      let declared ← typeExpr .default
      if (← look Cursor.kind) != .assignment then
        withType (.declare target.text ⟨target.span.start, declared.2.stop⟩) declared
      else
        let _ ← expect .assignment
        let value ← valueExpr .default
        let s ← withType (.define target.text ⟨target.span.start, value.span.stop⟩) declared
        withValue s value : Parse Stmt) (c.skip 2) := by
  have hname : (c.kind != .identifier) = false := by
    rw [Cursor.kind_of_ahead hahead, kind]
    rfl
  have hcolon : (c.peek 1 != .colon) = false := by
    rw [Cursor.peek_one_of_ahead hahead, colonKind]
    rfl
  have hahead' : c.advance.ahead = colon :: rest := by
    rw [Cursor.ahead_advance, hahead]
    rfl
  rw [annotatedStmt, look_bind_run, id_eq, hname, hcolon]
  simp only [Bool.or_self, Bool.false_eq_true, if_false]
  rw [bind_run_of_ok (expect_run hahead kind), bind_run_of_ok (expect_run hahead' colonKind)]
  rfl

/-- **Every statement is read**, where an end follows it. -/
theorem DerivesStmt.stmtBody_run {ts rest : List Token} {s : Stmt} (h : DerivesStmt ts s)
    {c : Cursor} (hahead : c.ahead = ts ++ rest) (hrest : EndsStmt rest) :
    stmtBody .default c = (.ok s, c.skip ts.length) := by
  have hstarts : Grammar.script.startsStatement c.kind = false := by
    obtain ⟨t, us, rfl, ht⟩ := h.opens
    rw [Cursor.kind_of_ahead hahead]
    cases hk : t.kind with
    | reserved w => cases w <;> first | rfl | simp [hk, opensExpr] at ht
    | _ => first | rfl | simp [hk, opensExpr] at ht
  rw [stmtBody, look_bind_run, id_eq, grammar_default, if_neg (by simp [hstarts]), classify,
    hahead]
  cases h with
  | @expression ts e value fits =>
    simp only [classifyFrom_expression value hrest]
    rw [expressionStmt, bind_run_of_ok (valueExpr_run value hahead hrest)]
    simp only [Stmt.ofExpr_eq_ok_iff.mpr ⟨fits, rfl⟩]
    rfl
  | @declaration target colon first more type kind colonKind declared =>
    have hdeclared : (c.skip 2).ahead = (first :: more) ++ rest := by
      rw [Cursor.ahead_skip, hahead]
      rfl
    have hbehind : ((c.skip 2).skip (first :: more).length).ahead = rest := by
      rw [Cursor.ahead_skip, hdeclared, List.drop_left]
    obtain ⟨-, hstop, -, hequals⟩ := stops_of_isLineEnd (EndsStmt.isLineEnd_kind
      (c := (c.skip 2).skip (first :: more).length) (by rwa [hbehind]))
    rw [List.cons_append, List.cons_append]
    simp only [classifyFrom_annotated kind colonKind]
    rw [annotatedStmt_run kind colonKind hahead,
      bind_run_of_ok (typeExpr_run declared hdeclared hstop), look_bind_run,
      if_pos (by simpa using hequals), withType_declare_run, Cursor.skip_skip, Nat.add_comm]
    rfl
  | @definition target colon first equals more ts type e kind colonKind declared equalsKind
      value fits =>
    have hdeclared : (c.skip 2).ahead = (first :: more) ++ (equals :: (ts ++ rest)) := by
      rw [Cursor.ahead_skip, hahead]
      simp
    have hequals : ((c.skip 2).skip (first :: more).length).ahead = equals :: (ts ++ rest) := by
      rw [Cursor.ahead_skip, hdeclared, List.drop_left]
    have hvalue : ((c.skip 2).skip (first :: more).length).advance.ahead = ts ++ rest := by
      rw [Cursor.ahead_advance, hequals]
      rfl
    have hkind : ((c.skip 2).skip (first :: more).length).kind = .assignment := by
      rw [Cursor.kind_of_ahead hequals, equalsKind]
    rw [List.cons_append, List.cons_append]
    simp only [classifyFrom_annotated kind colonKind]
    rw [annotatedStmt_run kind colonKind hahead,
      bind_run_of_ok (typeExpr_run declared hdeclared (by rw [hkind]; rfl)), look_bind_run,
      if_neg (by rw [hkind]; decide), bind_run_of_ok (expect_run hequals equalsKind),
      bind_run_of_ok (valueExpr_run value hvalue hrest), bind_run_of_ok (withType_define_run _ _ _ _),
      (withValue_eq_ok_iff declared.isLiteral_head).mpr ⟨⟨fits, rfl⟩, rfl⟩,
      Cursor.advance_skip, Cursor.skip_skip, Cursor.skip_skip]
    simp [Nat.add_comm, Nat.add_left_comm]

/-! ## Scripts -/

/-- The end of a statement is passed, where no line end is left over behind it. -/
theorem LineEnd.lineEnd_run {es rest : List Token} (h : LineEnd es) {c : Cursor}
    (hahead : c.ahead = es ++ rest) (hrest : ∀ t ∈ rest.head?, t.kind ≠ .newline) :
    lineEnd c = (.ok (), c.skip es.length) := by
  rw [lineEnd, look_bind_run]
  cases h with
  | @newline t kind =>
    rw [Cursor.kind_of_ahead hahead, kind]
    rfl
  | @semicolon t kind =>
    have hnext : (c.advance.kind == .newline) = false := by
      have hahead' : c.advance.ahead = rest := by
        rw [Cursor.ahead_advance, hahead]
        rfl
      cases rest with
      | nil =>
        rw [Cursor.kind_of_ahead_nil hahead']
        rfl
      | cons t rest =>
        rw [Cursor.kind_of_ahead hahead']
        simpa using hrest t rfl
    rw [Cursor.kind_of_ahead hahead, kind]
    show (if (c.advance.kind == TokenKind.newline) = true then (_ : Parse Unit) else _) _ = _
    rw [hnext]
    rfl
  | @semicolonNewline t u kind kind' =>
    have hnext : c.advance.kind = .newline := by
      have hahead' : c.advance.ahead = u :: rest := by
        rw [Cursor.ahead_advance, hahead]
        rfl
      rw [Cursor.kind_of_ahead hahead', kind']
    rw [Cursor.kind_of_ahead hahead, kind]
    show (if (c.advance.kind == TokenKind.newline) = true then (_ : Parse Unit) else _) _ = _
    rw [hnext]
    rfl

/-- What follows a script: a token that says that the list ends, or nothing. -/
def EndsScript (rest : List Token) : Prop := ∀ t ∈ rest.head?, t.kind = .eof

theorem EndsScript.kind {c : Cursor} (h : EndsScript c.ahead) : c.kind = .eof := by
  cases hc : c.ahead with
  | nil => exact Cursor.kind_of_ahead_nil hc
  | cons t ts =>
    rw [Cursor.kind_of_ahead hc]
    exact h t (by rw [hc]; rfl)

theorem EndsScript.endsStmt {rest : List Token} (h : EndsScript rest) : EndsStmt rest := by
  intro t ht
  rw [h t ht]
  rfl

/-- The loop over the statements stops where the script ends. -/
theorem stmts_stop {rounds : Nat} {c : Cursor} (h : c.kind = .eof) :
    stmts .default (rounds + 1) c = (.ok [], c) := by
  rw [stmts, look_bind_run, Cursor.hasTokens, h]
  rfl

/-- A statement and its end are read in one round of the loop over the statements. -/
theorem stmts_cons {rounds : Nat} {c c₁ c₂ : Cursor} {s : Stmt} (h : c.kind ≠ .eof)
    (hbody : stmtBody .default c = (.ok s, c₁)) (hend : lineEnd c₁ = (.ok (), c₂))
    {ss : List Stmt} {c₃ : Cursor} (hrest : stmts .default rounds c₂ = (.ok ss, c₃)) :
    stmts .default (rounds + 1) c = (.ok (s :: ss), c₃) := by
  have hstmt : stmt .default c = (.ok s, c₂) := by
    rw [stmt, bind_run_of_ok hbody, bind_run_of_ok hend, pure_run]
  rw [stmts, look_bind_run, Cursor.hasTokens, if_pos (by simpa using h), bind_run_of_ok hstmt,
    bind_run_of_ok hrest, pure_run]

theorem kind_ne_eof_of_opens {ts rest : List Token} {c : Cursor} (hahead : c.ahead = ts ++ rest)
    (hts : ∃ t us, ts = t :: us ∧ opensExpr t.kind = true) : c.kind ≠ .eof := by
  obtain ⟨t, us, rfl, ht⟩ := hts
  rw [Cursor.kind_of_ahead hahead]
  intro hk
  rw [hk] at ht
  cases ht

/-- **Every script is read**, in as many rounds as it has tokens and one more. -/
theorem DerivesScript.stmts_run {ts rest : List Token} {body : List Stmt}
    (h : DerivesScript ts body) {c : Cursor} {rounds : Nat} (hrounds : ts.length < rounds)
    (hahead : c.ahead = ts ++ rest) (hrest : EndsScript rest) :
    stmts .default rounds c = (.ok body, c.skip ts.length) := by
  obtain ⟨rounds, rfl⟩ := Nat.exists_eq_succ_of_ne_zero (by omega : rounds ≠ 0)
  induction h generalizing c rounds with
  | nil => exact stmts_stop (EndsScript.kind (by rwa [hahead]))
  | @last ts s stmt =>
    have hbehind : (c.skip ts.length).kind = .eof :=
      EndsScript.kind (by rwa [Cursor.ahead_skip, hahead, List.drop_left])
    have hend : lineEnd (c.skip ts.length) = (.ok (), c.skip ts.length) := by
      rw [lineEnd, look_bind_run, hbehind]
      rfl
    obtain ⟨t, us, hts, -⟩ := stmt.opens
    obtain ⟨rounds, rfl⟩ := Nat.exists_eq_succ_of_ne_zero (n := rounds) (by
      rw [hts, List.length_cons] at hrounds
      omega)
    exact stmts_cons (kind_ne_eof_of_opens hahead stmt.opens)
      (stmt.stmtBody_run hahead hrest.endsStmt) hend (stmts_stop hbehind)
  | @cons ts es us s ss stmt ends more ih =>
    have hsplit : c.ahead = ts ++ (es ++ (us ++ rest)) := by
      rw [hahead]
      simp
    have hends : EndsStmt (es ++ (us ++ rest)) := by
      cases ends with
      | newline kind => exact fun t ht => by cases ht; rw [kind]; rfl
      | semicolon kind => exact fun t ht => by cases ht; rw [kind]; rfl
      | semicolonNewline kind _ => exact fun t ht => by cases ht; rw [kind]; rfl
    have hbehind : (c.skip ts.length).ahead = es ++ (us ++ rest) := by
      rw [Cursor.ahead_skip, hsplit, List.drop_left]
    have hmore : ((c.skip ts.length).skip es.length).ahead = us ++ rest := by
      rw [Cursor.ahead_skip, hbehind, List.drop_left]
    -- what stands behind the end opens an expression or ends the script
    have hnext : ∀ t ∈ (us ++ rest).head?, t.kind ≠ .newline := by
      intro t ht hk
      rcases more.opens with rfl | ⟨u, vs, rfl, hu⟩
      · rw [hrest t ht] at hk
        cases hk
      · obtain rfl : u = t := by simpa using ht
        rw [hk] at hu
        cases hu
    simp only [List.length_append] at hrounds
    have hpos : 0 < ts.length := by
      obtain ⟨t, vs, rfl, -⟩ := stmt.opens
      simp
    obtain ⟨rounds, rfl⟩ := Nat.exists_eq_succ_of_ne_zero (by omega : rounds ≠ 0)
    rw [stmts_cons (kind_ne_eof_of_opens hsplit stmt.opens) (stmt.stmtBody_run hsplit hends)
      (ends.lineEnd_run hbehind hnext) (ih hmore rounds (by omega)), Cursor.skip_skip, Cursor.skip_skip]
    simp only [List.length_append]

end Reading
end SlotTree

import SlotTree.Proofs.Reading.Phrase

/-!
# What is read is a phrase

Every reader that succeeds has passed over a stretch of tokens, and that stretch is a
phrase of the grammar with the answer of the reader as its denotation.  The readers call
each other with a bound on nesting, and the bound is what the induction is on: a reader
for the inner levels is assumed to be sound (`Sound`), and the readers of one level are
sound whenever that one is.

The loops over what follows a type or an expression carry the phrase read so far along:
`followType_sound` and `followExpr_sound` start from a phrase in front of the cursor and
end with a longer one.
-/

namespace SlotTree
namespace Reading

open Parse

@[simp] theorem builtins_default : Language.default.builtins = Registry.default := rfl

@[simp] theorem grammar_default : Language.default.grammar = Grammar.script := rfl

/-- The reader passes over tokens that stand in the given relation to its answer. -/
def Sound {α : Type} (p : Parse α) (phrase : List Token → α → Prop) : Prop :=
  ∀ {c c' : Cursor} {a : α}, p c = (.ok a, c') → ∃ ts, c.Passes ts c' ∧ phrase ts a

/-! ## Annotations -/

theorem symbolType_sound : Sound (symbolType .default) DerivesType := by
  intro c c' type h
  rw [symbolType, bind_eq_ok_iff] at h
  obtain ⟨t, c₁, ht, h⟩ := h
  obtain ⟨hkind, hpass⟩ := expect_eq_ok (by decide) ht
  cases hfind : Registry.default.find? t.text with
  | none =>
    simp only [builtins_default, hfind] at h
    exact absurd h fail_ne_ok
  | some constructor =>
    simp only [builtins_default, hfind] at h
    cases htype : (constructor t.span).asType? with
    | none =>
      simp only [htype] at h
      exact absurd h fail_ne_ok
    | some type' =>
      simp only [htype] at h
      obtain ⟨rfl, rfl⟩ := pure_eq_ok_iff.mp h
      exact ⟨[t], hpass, .symbol hkind hfind htype⟩

theorem noneType_sound : Sound noneType DerivesType := by
  intro c c' type h
  rw [noneType, bind_eq_ok_iff] at h
  obtain ⟨t, c₁, ht, h⟩ := h
  obtain ⟨hkind, hpass⟩ := expect_eq_ok (by decide) ht
  obtain ⟨rfl, rfl⟩ := pure_eq_ok_iff.mp h
  exact ⟨[t], hpass, .noneType hkind⟩

theorem openType_sound : Sound (openType .default) DerivesType := by
  intro c c' type h
  rw [openType, look_bind_run] at h
  cases hopen : Grammar.script.typeOpening? c.kind with
  | none =>
    simp only [grammar_default, hopen] at h
    exact absurd h unexpected_ne_ok
  | some opening =>
    simp only [grammar_default, hopen] at h
    cases opening with
    | symbol => exact symbolType_sound h
    | none => exact noneType_sound h

/-- The items of a list type complete the annotation that stands before them. -/
theorem subscriptType_sound {item : Parse Ty} (hitem : Sound item DerivesType) {left type : Ty}
    {c c' : Cursor} (h : subscriptType item left c = (.ok type, c')) :
    ∃ us, c.Passes us c' ∧
      ∀ ts, DerivesType ts left → DerivesType (ts ++ us) type := by
  rw [subscriptType, bind_eq_ok_iff] at h
  obtain ⟨opening, c₁, hopen, h⟩ := h
  obtain ⟨hopenKind, hpass₁⟩ := expect_eq_ok (by decide) hopen
  split at h
  · exact absurd h fail_ne_ok
  · next hhead =>
    rw [bind_eq_ok_iff] at h
    obtain ⟨inner, c₂, hinner, h⟩ := h
    obtain ⟨us, hpass₂, hus⟩ := hitem hinner
    rw [bind_eq_ok_iff] at h
    obtain ⟨closing, c₃, hclose, h⟩ := h
    obtain ⟨hcloseKind, hpass₃⟩ := expect_eq_ok (by decide) hclose
    obtain ⟨rfl, rfl⟩ := pure_eq_ok_iff.mp h
    refine ⟨opening :: (us ++ [closing]), hpass₁.trans (hpass₂.trans hpass₃), ?_⟩
    intro ts hts
    exact .subscript hts (by simpa using hhead) hopenKind hus hcloseKind

theorem unionType_ne_ok {c c' : Cursor} {type : Ty} : unionType c ≠ (.ok type, c') := by
  intro h
  rw [unionType, bind_eq_ok_iff] at h
  obtain ⟨t, c₁, -, h⟩ := h
  exact absurd h fail_ne_ok

theorem scriptTypeFollowing?_rank_pos {kind : TokenKind} {power : Power}
    {following : TypeFollowing}
    (h : Grammar.scriptTypeFollowing? kind = some (power, following)) : 0 < power.rank := by
  unfold Grammar.scriptTypeFollowing? at h
  split at h <;> cases h <;> decide

/-- No token binds a type with the lowest power, so a type that is read at that power ends
only where nothing follows it. -/
theorem typePower?_rank_pos {kind : TokenKind} {power : Power}
    (h : Grammar.script.typePower? kind = some power) : 0 < power.rank := by
  rw [Grammar.typePower?] at h
  split at h
  · next hfollowing =>
    obtain rfl := Option.some.inj h
    exact scriptTypeFollowing?_rank_pos hfollowing
  · split at h
    · obtain rfl := Option.some.inj h
      decide
    · cases h

theorem followType_sound {item : Parse Ty} (hitem : Sound item DerivesType) {rounds : Nat}
    {left type : Ty} {c c' : Cursor}
    (h : followType .default item .lowest rounds left c = (.ok type, c')) :
    Grammar.script.typePower? c'.kind = none ∧
      ∃ us, c.Passes us c' ∧ ∀ ts, DerivesType ts left → DerivesType (ts ++ us) type := by
  induction rounds generalizing left c with
  | zero => exact absurd h unexpected_ne_ok
  | succ rounds ih =>
    rw [followType, look_bind_run] at h
    cases hpower : Grammar.script.typePower? c.kind with
    | none =>
      simp only [grammar_default, hpower] at h
      obtain ⟨rfl, rfl⟩ := pure_eq_ok_iff.mp h
      exact ⟨hpower, [], .refl c, fun ts hts => by simpa using hts⟩
    | some power =>
      have hbinds : ¬ power.rank ≤ Power.lowest.rank := Nat.not_le.mpr (typePower?_rank_pos hpower)
      simp only [grammar_default, hpower, if_neg hbinds] at h
      cases hnext : Grammar.script.typeFollowing? c.kind with
      | none =>
        simp only [hnext] at h
        exact absurd h unexpected_ne_ok
      | some entry =>
        obtain ⟨_, following⟩ := entry
        simp only [hnext] at h
        cases following with
        | subscript =>
          rw [bind_eq_ok_iff] at h
          obtain ⟨next, c₁, hsub, h⟩ := h
          obtain ⟨us, hpass, hus⟩ := subscriptType_sound hitem hsub
          obtain ⟨hstop, vs, hpass', hvs⟩ := ih h
          refine ⟨hstop, us ++ vs, hpass.trans hpass', fun ts hts => ?_⟩
          rw [← List.append_assoc]
          exact hvs _ (hus ts hts)
        | union => exact absurd h unionType_ne_ok

/-- A type that is read is an annotation, and nothing that could belong to it follows. -/
theorem typeUpTo_sound {levels : Nat} {c c' : Cursor} {type : Ty}
    (h : typeUpTo .default levels .lowest c = (.ok type, c')) :
    Grammar.script.typePower? c'.kind = none ∧ ∃ ts, c.Passes ts c' ∧ DerivesType ts type := by
  induction levels generalizing c c' type with
  | zero => exact absurd h unexpected_ne_ok
  | succ levels ih =>
    rw [typeUpTo, bind_eq_ok_iff] at h
    obtain ⟨left, c₁, hleft, h⟩ := h
    rw [look_bind_run] at h
    obtain ⟨ts, hpass, hts⟩ := openType_sound hleft
    obtain ⟨hstop, us, hpass', hus⟩ := followType_sound (fun hi => (ih hi).2) h
    exact ⟨hstop, ts ++ us, hpass.trans hpass', hus ts hts⟩

/-! ## Constants, names and groups -/

/-- Tokens of an expression with their denotation. -/
abbrev ExprPhrase (ts : List Token) (e : Expr) : Prop := Derives ts (.expr e)

theorem number_sound {c c' : Cursor} {e : Expr} (hkind : c.kind = .number)
    (h : number c = (.ok e, c')) : ∃ ts, c.Passes ts c' ∧ ExprPhrase ts e := by
  obtain ⟨t, ts, hahead, ht⟩ := Cursor.exists_ahead_of_kind_ne_eof (c := c) (by simp [hkind])
  rw [number, advance_bind_run, Cursor.current_of_ahead hahead] at h
  cases hv : Number.read t.text with
  | error cause =>
    simp only [hv] at h
    exact absurd h fail_ne_ok
  | ok v =>
    simp only [hv] at h
    obtain ⟨rfl, rfl⟩ := pure_eq_ok_iff.mp h
    exact ⟨[t], .single hahead, .constant (.number (ht.trans hkind) hv)⟩

/-- Adjacent string literals that are read as one constant are all plain ones. -/
theorem text_sound {c c' : Cursor} {e : Expr} (hkind : c.kind.isText = true)
    (h : text c = (.ok e, c')) : ∃ ts, c.Passes ts c' ∧ ExprPhrase ts e := by
  have hne : c.kind ≠ .eof := by rintro heof; simp [heof, TokenKind.isText] at hkind
  obtain ⟨t, rest, hahead, ht⟩ := Cursor.exists_ahead_of_kind_ne_eof hne
  rw [text, look_bind_run, bind_run_of_ok (takeWhile_run _ c)] at h
  have htake : c.ahead.takeWhile (fun t => t.kind.isText) =
      t :: rest.takeWhile (fun t => t.kind.isText) := by
    rw [hahead, List.takeWhile_cons, ht, hkind]
    rfl
  have hpass : c.Passes (t :: rest.takeWhile (fun t => t.kind.isText))
      (c.skip (t :: rest.takeWhile (fun t => t.kind.isText)).length) := by
    have hsplit : c.ahead = (t :: rest.takeWhile fun t => t.kind.isText) ++
        rest.dropWhile fun t => t.kind.isText := by
      rw [List.cons_append, List.takeWhile_append_dropWhile, hahead]
    exact .of_ahead hsplit
  have htext : ∀ u ∈ t :: rest.takeWhile (fun t => t.kind.isText), u.kind.isText = true := by
    intro u hu
    rw [← htake] at hu
    exact List.all_eq_true.mp List.all_takeWhile u hu
  simp only [htake] at h
  generalize rest.takeWhile (fun t => t.kind.isText) = ts at h hpass htext
  by_cases hbytes : (t :: ts).any (fun u => u.kind == .bytes) = true
  · by_cases hother : (t :: ts).any (fun u => u.kind != .bytes) = true
    · rw [if_pos (by rw [hbytes, hother]; rfl)] at h
      exact absurd h fail_ne_ok
    · rw [if_neg (by simp [hother]), if_pos hbytes] at h
      exact absurd h fail_ne_ok
  · rw [if_neg (by simp [hbytes]), if_neg hbytes] at h
    by_cases hformat : (t :: ts).any (fun u => u.kind == .formatString) = true
    · rw [if_pos hformat] at h
      exact absurd h fail_ne_ok
    · rw [if_neg hformat] at h
      obtain ⟨rfl, rfl⟩ := pure_eq_ok_iff.mp h
      refine ⟨t :: ts, hpass, ?_⟩
      have hkinds : ∀ u ∈ t :: ts, u.kind = .string := by
        intro u hu
        have h1 : u.kind ≠ .bytes := fun he => hbytes (List.any_eq_true.mpr ⟨u, hu, by simp [he]⟩)
        have h2 : u.kind ≠ .formatString :=
          fun he => hformat (List.any_eq_true.mpr ⟨u, hu, by simp [he]⟩)
        have h3 := htext u hu
        cases hu' : u.kind <;> simp_all [TokenKind.isText]
      have hspan : (⟨c.position, (((t :: ts).getLast?.map fun u => u.span.stop).getD c.position)⟩ : Span) =
          stretch t ts := by
        rw [List.getLast?_eq_some_getLast (List.cons_ne_nil t ts), stretch, Cursor.position,
          Cursor.current_of_ahead hahead]
        rfl
      rw [hspan]
      exact .text hkinds

/-- A constant of one reserved word. -/
theorem word_sound {c c' : Cursor} {e : Expr} {w : Reserved} {v : Literal}
    (hkind : c.kind = .reserved w) (hv : ∀ t : Token, t.kind = .reserved w → Constant t v)
    (h : (do let token ← advance; pure (Expr.ofLiteral v token.span) : Parse Expr) c = (.ok e, c')) :
    ∃ ts, c.Passes ts c' ∧ ExprPhrase ts e := by
  obtain ⟨t, ts, hahead, ht⟩ := Cursor.exists_ahead_of_kind_ne_eof (c := c) (by simp [hkind])
  rw [advance_bind_run, Cursor.current_of_ahead hahead] at h
  obtain ⟨rfl, rfl⟩ := pure_eq_ok_iff.mp h
  exact ⟨[t], .single hahead, .constant (hv t (ht.trans hkind))⟩

theorem constant_sound : Sound constant ExprPhrase := by
  intro c c' e h
  rw [constant, look_bind_run] at h
  generalize hkind : c.kind = kind at h
  cases kind with
  | number => exact number_sound hkind h
  | string | bytes | formatString => exact text_sound (by rw [hkind]; rfl) h
  | ellipsis => exact absurd h failHere_ne_ok
  | reserved w =>
    cases w with
    | true_ => exact word_sound hkind (fun _ => .true_) h
    | false_ => exact word_sound hkind (fun _ => .false_) h
    | none_ => exact word_sound hkind (fun _ => .none_) h
    | _ => exact absurd h unexpected_ne_ok
  | _ => exact absurd h unexpected_ne_ok

theorem name_sound : Sound (name .default) ExprPhrase := by
  intro c c' e h
  rw [name, bind_eq_ok_iff] at h
  obtain ⟨t, c₁, ht, h⟩ := h
  obtain ⟨hkind, hpass⟩ := expect_eq_ok (by decide) ht
  have hmention : (pure (mention t) : Parse Expr) c₁ = (.ok e, c') := by
    rw [← h, mention]
    cases hfind : Registry.default.find? t.text <;> simp only [builtins_default, hfind]
  obtain ⟨rfl, rfl⟩ := pure_eq_ok_iff.mp hmention
  exact ⟨[t], hpass, .name hkind⟩

theorem group_sound {inner : Parse Expr} (hinner : Sound inner ExprPhrase) :
    Sound (group inner) ExprPhrase := by
  intro c c' e h
  rw [group, bind_eq_ok_iff] at h
  obtain ⟨opening, c₁, hopen, h⟩ := h
  obtain ⟨hopenKind, hpass₁⟩ := expect_eq_ok (by decide) hopen
  rw [look_bind_run] at h
  split at h
  · exact absurd h fail_ne_ok
  · rw [bind_eq_ok_iff] at h
    obtain ⟨e', c₂, he, h⟩ := h
    obtain ⟨ts, hpass₂, hts⟩ := hinner he
    rw [look_bind_run] at h
    -- a comma and a `for` are refused, and any other token is expected to close the group
    have hclose : (do let _ ← expect .closeParen; pure e' : Parse Expr) c₂ = (.ok e, c') := by
      generalize c₂.kind = kind at h
      cases kind with
      | comma => exact absurd h fail_ne_ok
      | reserved w =>
        cases w with
        | for_ => exact absurd h fail_ne_ok
        | _ => exact h
      | _ => exact h
    rw [bind_eq_ok_iff] at hclose
    obtain ⟨closing, c₃, hclosing, hclose⟩ := hclose
    obtain ⟨hcloseKind, hpass₃⟩ := expect_eq_ok (by decide) hclosing
    obtain ⟨rfl, rfl⟩ := pure_eq_ok_iff.mp hclose
    exact ⟨opening :: (ts ++ [closing]), hpass₁.trans (hpass₂.trans hpass₃),
      .group hopenKind hts hcloseKind⟩

/-! ## Arguments and calls -/

/-- Tokens of an argument with their denotation. -/
abbrev ArgumentPhrase (ts : List Token) (a : Argument) : Prop := Derives ts (.argument a)

/-- Tokens of a list of arguments with their denotation. -/
abbrev ArgumentsPhrase (ts : List Token) (args : List Argument) : Prop :=
  Derives ts (.arguments args)

theorem positional_sound {inner : Parse Expr} (hinner : Sound inner ExprPhrase) {c c' : Cursor}
    {a : Argument}
    (h : (do
      let value ← inner
      if (← look Cursor.kind) == .reserved .for_ then
        fail (notSupported "GeneratorExp" value.span.start)
      else pure ⟨none, value⟩ : Parse Argument) c = (.ok a, c')) :
    ∃ ts, c.Passes ts c' ∧ ArgumentPhrase ts a := by
  rw [bind_eq_ok_iff] at h
  obtain ⟨e, c₁, he, h⟩ := h
  obtain ⟨ts, hpass, hts⟩ := hinner he
  rw [look_bind_run] at h
  split at h
  · exact absurd h fail_ne_ok
  · obtain ⟨rfl, rfl⟩ := pure_eq_ok_iff.mp h
    exact ⟨ts, hpass, .positional hts⟩

theorem argument_sound {inner : Parse Expr} (hinner : Sound inner ExprPhrase) :
    Sound (argument inner) ArgumentPhrase := by
  intro c c' a h
  rw [argument, look_bind_run] at h
  generalize hkind : (id c : Cursor).kind = kind at h
  cases kind with
  | star => exact absurd h fail_ne_ok
  | doubleStar => exact absurd h fail_ne_ok
  | identifier =>
    simp only [id_eq, beq_self_eq_true, Bool.true_and] at h
    split at h
    · next hpeek =>
      -- the name of a keyword argument and the sign after it are the two tokens ahead
      obtain ⟨t, ts, hahead, ht⟩ := Cursor.exists_ahead_of_kind_ne_eof (c := c) (by
        rw [show c.kind = .identifier from hkind]
        decide)
      have hpeek' : c.peek 1 = .assignment := by simpa using hpeek
      cases ts with
      | nil => simp [Cursor.peek, hahead] at hpeek'
      | cons u us =>
        have hu : u.kind = .assignment := by rw [← Cursor.peek_one_of_ahead hahead, hpeek']
        have hahead' : c.advance.ahead = u :: us := by rw [Cursor.ahead_advance, hahead]; rfl
        rw [advance_bind_run, advance_bind_run, Cursor.current_of_ahead hahead, bind_eq_ok_iff] at h
        obtain ⟨e, c₁, he, h⟩ := h
        obtain ⟨vs, hpass, hvs⟩ := hinner he
        obtain ⟨rfl, rfl⟩ := pure_eq_ok_iff.mp h
        exact ⟨t :: u :: vs, .cons hahead (.cons hahead' hpass),
          .keyword (ht.trans hkind) hu hvs⟩
    · exact positional_sound hinner h
  | _ => exact positional_sound hinner h

theorem arguments_sound {inner : Parse Expr} (hinner : Sound inner ExprPhrase) (rounds : Nat) :
    Sound (arguments inner rounds) ArgumentsPhrase := by
  intro c c' args h
  induction rounds generalizing c c' args with
  | zero => exact absurd h unexpected_ne_ok
  | succ rounds ih =>
    rw [arguments, look_bind_run] at h
    split at h
    · obtain ⟨rfl, rfl⟩ := pure_eq_ok_iff.mp h
      exact ⟨[], .refl c, .noArguments⟩
    · rw [bind_eq_ok_iff] at h
      obtain ⟨a, c₁, ha, h⟩ := h
      obtain ⟨ts, hpass, hts⟩ := argument_sound hinner ha
      rw [look_bind_run] at h
      split at h
      · next hcomma =>
        have hkind : c₁.kind = .comma := by simpa using hcomma
        obtain ⟨t, rest, hahead, ht⟩ :=
          Cursor.exists_ahead_of_kind_ne_eof (c := c₁) (by simp [hkind])
        rw [advance_bind_run, bind_eq_ok_iff] at h
        obtain ⟨more, c₂, hmore, h⟩ := h
        obtain ⟨us, hpass', hus⟩ := ih hmore
        obtain ⟨rfl, rfl⟩ := pure_eq_ok_iff.mp h
        exact ⟨ts ++ t :: us, hpass.trans (.cons hahead hpass'),
          .moreArguments hts (ht.trans hkind) hus⟩
      · obtain ⟨rfl, rfl⟩ := pure_eq_ok_iff.mp h
        exact ⟨ts, hpass, .lastArgument hts⟩

/-- The arguments of a call complete the expression that stands before them. -/
theorem call_sound {inner : Parse Expr} (hinner : Sound inner ExprPhrase) {left e : Expr}
    {c c' : Cursor} (h : call inner left c = (.ok e, c')) :
    ∃ us, c.Passes us c' ∧ ∀ ts, ExprPhrase ts left → ExprPhrase (ts ++ us) e := by
  rw [call, bind_eq_ok_iff] at h
  obtain ⟨opening, c₁, hopen, h⟩ := h
  obtain ⟨hopenKind, hpass₁⟩ := expect_eq_ok (by decide) hopen
  rw [look_bind_run, bind_eq_ok_iff] at h
  obtain ⟨args, c₂, hargs, h⟩ := h
  obtain ⟨us, hpass₂, hus⟩ := arguments_sound hinner _ hargs
  rw [bind_eq_ok_iff] at h
  obtain ⟨closing, c₃, hclose, h⟩ := h
  obtain ⟨hcloseKind, hpass₃⟩ := expect_eq_ok (by decide) hclose
  rw [bind_eq_ok_iff] at h
  obtain ⟨callee, c₄, hlift, h⟩ := h
  obtain ⟨hcallee, rfl⟩ := lift_eq_ok_iff.mp hlift
  rw [bind_eq_ok_iff] at h
  obtain ⟨bound, c₅, hlift', h⟩ := h
  obtain ⟨hbound, rfl⟩ := lift_eq_ok_iff.mp hlift'
  obtain ⟨rfl, rfl⟩ := pure_eq_ok_iff.mp h
  refine ⟨opening :: (us ++ [closing]), hpass₁.trans (hpass₂.trans hpass₃), ?_⟩
  intro ts hts
  exact .call hts hopenKind hus hcloseKind hcallee hbound

/-! ## Expressions -/

theorem openExpr_sound {inner : Parse Expr} (hinner : Sound inner ExprPhrase) :
    Sound (openExpr .default inner) ExprPhrase := by
  intro c c' e h
  rw [openExpr, look_bind_run] at h
  cases hopen : Grammar.script.opening? c.kind with
  | none =>
    simp only [grammar_default, hopen] at h
    exact absurd h unexpected_ne_ok
  | some opening =>
    simp only [grammar_default, hopen] at h
    cases opening with
    | constant => exact constant_sound h
    | name => exact name_sound h
    | group => exact group_sound hinner h
    | unsupported =>
      simp only [unsupportedOpening] at h
      split at h <;> simp at h

theorem scriptFollowing?_rank_pos {kind : TokenKind} {power : Power} {following : Following}
    (h : Grammar.scriptFollowing? kind = some (power, following)) : 0 < power.rank := by
  unfold Grammar.scriptFollowing? at h
  split at h <;> cases h <;> decide

/-- No token binds an expression with the lowest power. -/
theorem power?_rank_pos {kind : TokenKind} {power : Power}
    (h : Grammar.script.power? kind = some power) : 0 < power.rank := by
  rw [Grammar.power?] at h
  split at h
  · next hfollowing =>
    obtain rfl := Option.some.inj h
    exact scriptFollowing?_rank_pos hfollowing
  · split at h
    · obtain rfl := Option.some.inj h
      decide
    · cases h

theorem followExpr_sound {inner : Parse Expr} (hinner : Sound inner ExprPhrase) {rounds : Nat}
    {left e : Expr} {c c' : Cursor}
    (h : followExpr .default inner .lowest rounds left c = (.ok e, c')) :
    ∃ us, c.Passes us c' ∧ ∀ ts, ExprPhrase ts left → ExprPhrase (ts ++ us) e := by
  induction rounds generalizing left c with
  | zero => exact absurd h unexpected_ne_ok
  | succ rounds ih =>
    rw [followExpr, look_bind_run] at h
    cases hpower : Grammar.script.power? c.kind with
    | none =>
      simp only [grammar_default, hpower] at h
      obtain ⟨rfl, rfl⟩ := pure_eq_ok_iff.mp h
      exact ⟨[], .refl c, fun ts hts => by simpa using hts⟩
    | some power =>
      have hbinds : ¬ power.rank ≤ Power.lowest.rank := Nat.not_le.mpr (power?_rank_pos hpower)
      simp only [grammar_default, hpower, if_neg hbinds] at h
      cases hnext : Grammar.script.following? c.kind with
      | none =>
        simp only [hnext] at h
        exact absurd h unexpected_ne_ok
      | some entry =>
        obtain ⟨_, following⟩ := entry
        simp only [hnext] at h
        cases following with
        | call =>
          rw [bind_eq_ok_iff] at h
          obtain ⟨next, c₁, hcall, h⟩ := h
          obtain ⟨us, hpass, hus⟩ := call_sound hinner hcall
          obtain ⟨vs, hpass', hvs⟩ := ih h
          refine ⟨us ++ vs, hpass.trans hpass', fun ts hts => ?_⟩
          rw [← List.append_assoc]
          exact hvs _ (hus ts hts)
        | unsupported =>
          simp only [unsupportedFollowing] at h
          split at h <;> simp at h

/-- **An expression that is read is an expression of the grammar.** -/
theorem exprUpTo_sound (levels : Nat) : Sound (exprUpTo .default levels .lowest) ExprPhrase := by
  intro c c' e h
  induction levels generalizing c c' e with
  | zero => exact absurd h unexpected_ne_ok
  | succ levels ih =>
    rw [exprUpTo, bind_eq_ok_iff] at h
    obtain ⟨left, c₁, hleft, h⟩ := h
    rw [look_bind_run] at h
    obtain ⟨ts, hpass, hts⟩ := openExpr_sound ih hleft
    obtain ⟨us, hpass', hus⟩ := followExpr_sound ih h
    exact ⟨ts ++ us, hpass.trans hpass', hus ts hts⟩

/-! ## Statements -/

theorem valueExpr_sound : Sound (valueExpr .default) ExprPhrase := by
  intro c c' e h
  rw [valueExpr, bind_eq_ok_iff] at h
  obtain ⟨value, c₁, hvalue, h⟩ := h
  obtain ⟨ts, hpass, hts⟩ := exprUpTo_sound _ hvalue
  rw [look_bind_run] at h
  split at h
  · exact absurd h fail_ne_ok
  · obtain ⟨rfl, rfl⟩ := pure_eq_ok_iff.mp h
    exact ⟨ts, hpass, hts⟩

theorem expressionStmt_sound : Sound (expressionStmt .default) DerivesStmt := by
  intro c c' s h
  rw [expressionStmt, bind_eq_ok_iff] at h
  obtain ⟨e, c₁, he, h⟩ := h
  obtain ⟨ts, hpass, hts⟩ := valueExpr_sound he
  cases hs : Stmt.ofExpr e e.span with
  | error fault =>
    simp only [hs] at h
    exact absurd h fail_ne_ok
  | ok s' =>
    simp only [hs] at h
    obtain ⟨rfl, rfl⟩ := pure_eq_ok_iff.mp h
    obtain ⟨hfits, rfl⟩ := Stmt.ofExpr_eq_ok_iff.mp hs
    exact ⟨ts, hpass, .expression hts hfits⟩

/-- An annotation never denotes a literal class. -/
theorem DerivesType.isLiteral_head {ts : List Token} {type : Ty} (h : DerivesType ts type) :
    type.head.isLiteral = false := by
  cases h with
  | symbol kind builtin isType =>
    rcases Registry.find?_default builtin with ⟨c, hc, rfl⟩ | rfl | ⟨-, rfl⟩
    · obtain rfl : Ty.wrap c = type := by simpa [Registry.typeConstructor] using isType
      simp only [List.mem_cons, List.not_mem_nil, or_false] at hc
      rcases hc with rfl | rfl | rfl | rfl | rfl | rfl <;> rfl
    · simp [Expr.ofLiteral, Expr.asType?] at isType
    · simp [Expr.emptyPrint, Expr.asType?] at isType
  | noneType kind => rfl
  | subscript whole isList openKind inner closeKind => rfl

/-- The stretch of an annotation that was passed over. -/
theorem typeExpr_sound {c c' : Cursor} {type : Ty} {span : Span}
    (h : typeExpr .default c = (.ok (type, span), c')) :
    ∃ first more, c.Passes (first :: more) c' ∧ DerivesType (first :: more) type ∧
      span = stretch first more := by
  rw [typeExpr, look_bind_run, bind_eq_ok_iff] at h
  obtain ⟨type', c₁, htype, h⟩ := h
  rw [look_bind_run] at h
  obtain ⟨hpair, rfl⟩ := pure_eq_ok_iff.mp h
  obtain ⟨rfl, rfl⟩ := Prod.mk.inj hpair
  obtain ⟨-, ts, hpass, hts⟩ := typeUpTo_sound htype
  cases ts with
  | nil =>
    generalize hnil : ([] : List Token) = ts at hts
    cases hts <;> simp at hnil
  | cons first more =>
    refine ⟨first, more, hpass, hts, ?_⟩
    rw [stretch, hpass.stands, Cursor.previousEnd_skip (List.cons_ne_nil _ _) hpass.ahead,
      Cursor.position, Cursor.current_of_ahead hpass.ahead]

theorem withType_declare_run (id : String) (span : Span) (declared : Ty × Span) (c : Cursor) :
    withType (.declare id span) declared c =
      (.ok (.declaration (.ofLiteral (.str id)) (Stmt.typeSlot declared.1 declared.2 none) span),
        c) := rfl

theorem withType_define_run (id : String) (span : Span) (declared : Ty × Span) (c : Cursor) :
    withType (.define id span) declared c =
      (.ok (.definition (.ofLiteral (.str id))
        (Stmt.typeSlot declared.1 declared.2 (some (.ofType declared.1))) span), c) := rfl

/-- A definition takes its value exactly if that fits the declared type. -/
theorem withValue_eq_ok_iff {type : Ty} (ht : type.head.isLiteral = false) {id : Slot}
    {at_ span : Span} {e : Expr} {s : Stmt} {c c' : Cursor} :
    withValue (.definition id (Stmt.typeSlot type at_ (some (.ofType type))) span) e c =
        (.ok s, c') ↔
      (e.valueType.fits type = true ∧
        s = .definition id (Stmt.typeSlot type at_ (some (.holding type e))) span) ∧ c = c' := by
  rw [withValue, Stmt.setValue?_definition ht]
  cases e.valueType.fits type with
  | false => simp
  | true => simp [eq_comm]

theorem annotatedStmt_sound : Sound (annotatedStmt .default) DerivesStmt := by
  intro c c' s h
  rw [annotatedStmt, look_bind_run] at h
  split at h
  · exact absurd h failHere_ne_ok
  · rw [bind_eq_ok_iff] at h
    obtain ⟨target, c₁, htarget, h⟩ := h
    obtain ⟨hkind, hpass₁⟩ := expect_eq_ok (by decide) htarget
    rw [bind_eq_ok_iff] at h
    obtain ⟨colon, c₂, hcolon, h⟩ := h
    obtain ⟨hcolonKind, hpass₂⟩ := expect_eq_ok (by decide) hcolon
    rw [bind_eq_ok_iff] at h
    obtain ⟨⟨type, span⟩, c₃, htype, h⟩ := h
    obtain ⟨first, more, hpass₃, hdeclared, rfl⟩ := typeExpr_sound htype
    rw [look_bind_run] at h
    split at h
    · rw [withType_declare_run] at h
      simp only [Prod.mk.injEq, Except.ok.injEq] at h
      obtain ⟨rfl, rfl⟩ := h
      exact ⟨target :: colon :: first :: more, hpass₁.trans (hpass₂.trans hpass₃),
        .declaration hkind hcolonKind hdeclared⟩
    · rw [bind_eq_ok_iff] at h
      obtain ⟨equals, c₄, hequals, h⟩ := h
      obtain ⟨hequalsKind, hpass₄⟩ := expect_eq_ok (by decide) hequals
      rw [bind_eq_ok_iff] at h
      obtain ⟨e, c₅, he, h⟩ := h
      obtain ⟨ts, hpass₅, hts⟩ := valueExpr_sound he
      rw [bind_run_of_ok (withType_define_run _ _ _ _),
        withValue_eq_ok_iff hdeclared.isLiteral_head] at h
      obtain ⟨⟨hfits, rfl⟩, rfl⟩ := h
      exact ⟨target :: colon :: first :: (more ++ equals :: ts),
        hpass₁.trans (hpass₂.trans (hpass₃.trans (hpass₄.trans hpass₅))),
        .definition hkind hcolonKind hdeclared hequalsKind hts hfits⟩

theorem stmtBody_sound : Sound (stmtBody .default) DerivesStmt := by
  intro c c' s h
  rw [stmtBody, look_bind_run] at h
  split at h
  · simp only [unsupportedStmt] at h
    split at h <;> simp at h
  · generalize classify (id c) = line at h
    cases line with
    | annotated => exact annotatedStmt_sound h
    | assignment node => exact absurd h fail_ne_ok
    | expression => exact expressionStmt_sound h

/-- The end of a statement is passed over, or it is the end of the list. -/
theorem lineEnd_sound {c c' : Cursor} {u : Unit} (h : lineEnd c = (.ok u, c')) :
    (∃ es, c.Passes es c' ∧ LineEnd es) ∨ (c.kind = .eof ∧ c' = c) := by
  rw [lineEnd, look_bind_run] at h
  generalize hkind : c.kind = kind at h
  cases kind with
  | eof =>
    obtain ⟨-, rfl⟩ := pure_eq_ok_iff.mp h
    exact Or.inr ⟨rfl, rfl⟩
  | newline =>
    obtain ⟨t, ts, hahead, ht⟩ := Cursor.exists_ahead_of_kind_ne_eof (c := c) (by simp [hkind])
    obtain ⟨-, rfl⟩ := pure_eq_ok_iff.mp h
    exact Or.inl ⟨[t], .single hahead, .newline (ht.trans hkind)⟩
  | semicolon =>
    obtain ⟨t, ts, hahead, ht⟩ := Cursor.exists_ahead_of_kind_ne_eof (c := c) (by simp [hkind])
    simp only [advance_bind_run, look_bind_run] at h
    split at h
    · next hnewline =>
      have hkind' : c.advance.kind = .newline := by simpa using hnewline
      obtain ⟨u, us, hahead', hu⟩ :=
        Cursor.exists_ahead_of_kind_ne_eof (c := c.advance) (by simp [hkind'])
      obtain ⟨-, rfl⟩ := pure_eq_ok_iff.mp h
      exact Or.inl ⟨[t, u], .cons hahead (.single hahead'),
        .semicolonNewline (ht.trans hkind) (hu.trans hkind')⟩
    · obtain ⟨-, rfl⟩ := pure_eq_ok_iff.mp h
      exact Or.inl ⟨[t], .single hahead, .semicolon (ht.trans hkind)⟩
  | _ => exact absurd h unexpected_ne_ok

/-- **A script that is read is a script of the grammar**, up to the first token that says
that the list ends. -/
theorem stmts_sound {rounds : Nat} {c c' : Cursor} {body : List Stmt}
    (h : stmts .default rounds c = (.ok body, c')) :
    c'.kind = .eof ∧ ∃ ts, c.Passes ts c' ∧ DerivesScript ts body := by
  induction rounds generalizing c c' body with
  | zero => exact absurd h unexpected_ne_ok
  | succ rounds ih =>
    rw [stmts, look_bind_run] at h
    split at h
    · rw [bind_eq_ok_iff] at h
      obtain ⟨s, c₁, hs, h⟩ := h
      rw [stmt, bind_eq_ok_iff] at hs
      obtain ⟨s', c₂, hs', hs⟩ := hs
      obtain ⟨ts, hpass, hts⟩ := stmtBody_sound hs'
      rw [bind_eq_ok_iff] at hs
      obtain ⟨_, c₃, hend, hs⟩ := hs
      obtain ⟨rfl, rfl⟩ := pure_eq_ok_iff.mp hs
      rw [bind_eq_ok_iff] at h
      obtain ⟨rest, c₄, hrest, h⟩ := h
      obtain ⟨rfl, rfl⟩ := pure_eq_ok_iff.mp h
      obtain ⟨hstop, us, hpass', hus⟩ := ih hrest
      rcases lineEnd_sound hend with ⟨es, hpassEnd, hes⟩ | ⟨heof, rfl⟩
      · exact ⟨hstop, ts ++ (es ++ us), hpass.trans (hpassEnd.trans hpass'), .cons hts hes hus⟩
      · -- the list ends right after the statement, so the loop stops there
        have hdone : us = [] ∧ rest = [] ∧ c₄ = c₃ := by
          cases rounds with
          | zero => exact absurd hrest unexpected_ne_ok
          | succ rounds =>
            rw [stmts, look_bind_run, Cursor.hasTokens, heof] at hrest
            obtain ⟨hnil, hcursor⟩ := pure_eq_ok_iff.mp hrest
            have hlen := congrArg List.length hpass'.ahead
            rw [← hcursor, List.length_append] at hlen
            exact ⟨List.length_eq_zero_iff.mp (by omega), hnil.symm, hcursor.symm⟩
        obtain ⟨rfl, rfl, rfl⟩ := hdone
        exact ⟨hstop, ts, hpass, .last hts⟩
    · next heof =>
      obtain ⟨rfl, rfl⟩ := pure_eq_ok_iff.mp h
      exact ⟨by simpa [Cursor.hasTokens] using heof, [], .refl c, .nil⟩

end Reading
end SlotTree

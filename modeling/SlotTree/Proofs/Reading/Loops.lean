import SlotTree.Proofs.Reading.Progress

/-!
# Reading ends

The readers are given bounds, for the levels of nesting and for the rounds of each loop, and the
bounds are the tokens that are left.  Without them the readers call one another and themselves, and
what they do is described by equations: `TypeReaders.Unbounded` and `ExprReaders.Unbounded` for the
two kinds of phrases, `stmtsRound` for the statements of a script and `literalsRound` for adjacent
strings.  In the equations nothing is counted.

Equations like these have a solution even where reading would go on for ever, but then they have
many: a call that never comes back could be given any outcome.  Here each system has exactly one
solution, which is what the bounded readers do.  So every call that the equations describe comes to
an end, and the bounds are never met.

The reason is that every way around a loop, and every way down a level, is behind a token
(`Parse.InStepAfter`).  `reading_ends` puts this together with where a reader stops in a list of
tokens, which is counted from the start of the list.
-/

namespace SlotTree

open Parse

/-! ## Places in a list of tokens -/

namespace Cursor

/-- All tokens that the cursor can come to, with the one that closes the list. -/
def tokens (c : Cursor) : List Token := c.ahead ++ [c.closing]

@[simp] theorem length_tokens (c : Cursor) : c.tokens.length = c.ahead.length + 1 := by
  rw [tokens, List.length_append, List.length_singleton]

theorem getLast?_tokens (c : Cursor) : c.tokens.getLast? = some c.closing :=
  List.getLast?_concat

/-- The current token is the first one. -/
theorem getElem?_tokens_zero (c : Cursor) : c.tokens[0]? = some c.current := by
  cases h : c.ahead with
  | nil => simp [tokens, current, h]
  | cons t ts => simp [tokens, current, h]

/-- Moving the cursor on is dropping tokens. -/
theorem tokens_skip {c : Cursor} {n : Nat} (h : n ≤ c.ahead.length) :
    (c.skip n).tokens = c.tokens.drop n := by
  rw [tokens, tokens, ahead_skip, closing_skip, List.drop_append_of_le_length h]

/-- The token at a place is the current one of the cursor there. -/
theorem getElem?_tokens {c : Cursor} {n : Nat} (h : n ≤ c.ahead.length) :
    c.tokens[n]? = some (c.skip n).current := by
  rw [← getElem?_tokens_zero, tokens_skip h, List.getElem?_drop, Nat.add_zero]

/-- A list of tokens is closed at its end, unless it is closed there already. -/
theorem tokens_ofTokens (list : List Token) (file : String) :
    (ofTokens list file).tokens =
      list ++ if list.getLast?.map Token.kind = some .eof then []
        else [(ofTokens list file).closing] := by
  cases hlast : list.getLast? with
  | none =>
    obtain rfl := List.getLast?_eq_none_iff.mp hlast
    rfl
  | some last =>
    obtain ⟨front, rfl⟩ := List.getLast?_eq_some_iff.mp hlast
    obtain ⟨kind, text, span⟩ := last
    by_cases hkind : kind = .eof
    · subst hkind
      simp [tokens, closing, ofTokens]
    · simp [tokens, ofTokens, hkind]

end Cursor

namespace Reading

/-- From any place in the list of tokens ahead, the reader stops at a place of the list that is not
before it, and where it answers, at one that is behind it. -/
def MovesOn {α : Type} (start : Cursor) (p : Parse α) : Prop :=
  ∀ i < start.tokens.length, ∃ j, i ≤ j ∧ j < start.tokens.length ∧
    (p (start.skip i)).2 = start.skip j ∧ ∀ a, (p (start.skip i)).1 = .ok a → i < j

theorem movesOn_of_inStep {α : Type} {start : Cursor} {p : Parse α}
    (h : ∀ c, InStep 1 p p c) : MovesOn start p := by
  intro i hi
  obtain ⟨-, n, hn, hstop, hleast⟩ := h (start.skip i)
  rw [Cursor.length_tokens] at hi ⊢
  rw [Cursor.ahead_skip, List.length_drop] at hn
  refine ⟨i + n, by omega, by omega, by rw [hstop, Cursor.skip_skip], fun a ha => ?_⟩
  have := hleast a ha
  omega

variable {lang : Language} {c : Cursor}

/-! ## Annotations -/

/-- Readers of annotations, from their start and from behind a part of them. -/
@[ext]
structure TypeReaders where
  type : Power → Parse Ty
  follow : Power → Ty → Parse Ty

/-- The readers of annotations call one another with nothing to bound them. -/
structure TypeReaders.Unbounded (lang : Language) (r : TypeReaders) : Prop where
  type_eq (power : Power) : r.type power = openType lang >>= r.follow power
  follow_eq (power : Power) : r.follow power =
    followTypeRound lang (subscriptType (r.type .lowest)) (r.follow power) power

/-- The readers of annotations with their bounds. -/
def boundedTypes (lang : Language) : TypeReaders where
  type := type lang
  follow power left c := followType lang (type lang .lowest) power c.remaining left c

/-- With more levels than tokens the bound is not met. -/
theorem inStep_typeUpTo_type {levels : Nat} (h : c.ahead.length < levels) (power : Power) :
    InStep 1 (typeUpTo lang levels power) (type lang power) c :=
  (inStep_typeUpTo h (Nat.lt_succ_self _) power).of_eq rfl rfl

/-- With more rounds than tokens the bound is not met. -/
theorem inStep_followType_bounded {item : Parse Ty} {rounds : Nat}
    (hitem : InStepAfter c 1 item (type lang .lowest)) (h : c.ahead.length < rounds)
    (power : Power) (left : Ty) :
    InStep 0 (followType lang item power rounds left) ((boundedTypes lang).follow power left) c :=
  (inStep_followType hitem h (Nat.lt_succ_self _) power left).of_eq rfl rfl

/-- The bounded readers solve the equations in which nothing is bounded. -/
theorem unbounded_boundedTypes : (boundedTypes lang).Unbounded lang := by
  refine ⟨fun power => funext fun c => ?_, fun power => funext fun left => funext fun c => ?_⟩
  · let item := typeUpTo lang c.ahead.length .lowest
    have hitem : InStepAfter c 1 item (type lang .lowest) :=
      fun d hd => inStep_typeUpTo_type hd .lowest
    have hopened : InStep 1
        (openType lang >>= fun left => do
          followType lang item power (← look Cursor.remaining) left)
        (openType lang >>= (boundedTypes lang).follow power) c :=
      .bind inStep_openType fun left d hd =>
        (inStep_followType_bounded (hitem.of_le (Nat.le_of_lt hd)) (Nat.lt_succ_self _) power
          left).of_eq rfl rfl
    exact hopened.same
  · have hitem (d : Cursor) : InStepAfter d 1 (type lang .lowest) (type lang .lowest) :=
      fun e _ => inStep_type .lowest
    have hagain (left : Ty) : InStepAfter c 0
        (followType lang (type lang .lowest) power c.ahead.length left)
        ((boundedTypes lang).follow power left) :=
      fun d hd => inStep_followType_bounded (hitem d) hd power left
    exact (inStep_followTypeRound left (inStep_subscriptType (hitem c) left) hagain power).same

/-- Readers that nothing bounds are in step, by induction on the tokens that are left. -/
theorem TypeReaders.Unbounded.inStep {r r' : TypeReaders} (h : r.Unbounded lang)
    (h' : r'.Unbounded lang) : (∀ power, InStep 1 (r.type power) (r'.type power) c) ∧
      ∀ power left, InStep 0 (r.follow power left) (r'.follow power left) c := by
  induction hleft : c.ahead.length using Nat.strongRecOn generalizing c with
  | _ n ih =>
    subst hleft
    have htype (power : Power) : InStepAfter c 1 (r.type power) (r'.type power) :=
      fun d hd => (ih _ hd rfl).1 power
    have hfollow (power : Power) (left : Ty) :
        InStepAfter c 0 (r.follow power left) (r'.follow power left) :=
      fun d hd => (ih _ hd rfl).2 power left
    refine ⟨fun power => ?_, fun power left => ?_⟩
    · rw [h.type_eq, h'.type_eq]
      exact .bind inStep_openType fun left d hd => hfollow power left d hd
    · rw [h.follow_eq, h'.follow_eq]
      exact inStep_followTypeRound left (inStep_subscriptType (htype .lowest) left)
        (hfollow power) power

/-- **Reading an annotation comes to an end**: the equations have one solution. -/
theorem unbounded_types_iff {r : TypeReaders} : r.Unbounded lang ↔ r = boundedTypes lang := by
  refine ⟨fun h => ?_, fun h => h ▸ unbounded_boundedTypes⟩
  have hsame (c : Cursor) := h.inStep (c := c) unbounded_boundedTypes
  refine TypeReaders.ext ?_ ?_
  · funext power c
    exact ((hsame c).1 power).same
  · funext power left c
    exact ((hsame c).2 power left).same

/-! ## Expressions -/

/-- Readers of expressions, from their start and from behind a part of them, and of the arguments
of a call. -/
@[ext]
structure ExprReaders where
  expr : Power → Parse Expr
  follow : Power → Expr → Parse Expr
  arguments : Parse (List Argument)

/-- The readers of expressions call one another with nothing to bound them. -/
structure ExprReaders.Unbounded (lang : Language) (r : ExprReaders) : Prop where
  expr_eq (power : Power) : r.expr power = openExpr lang (r.expr .lowest) >>= r.follow power
  follow_eq (power : Power) : r.follow power =
    followRound lang (callWith r.arguments) (r.follow power) power
  arguments_eq : r.arguments = argumentsRound (argument (r.expr .lowest)) r.arguments

/-- The readers of expressions with their bounds. -/
def boundedExprs (lang : Language) : ExprReaders where
  expr := expr lang
  follow power left c := followExpr lang (expr lang .lowest) power c.remaining left c
  arguments c := arguments (expr lang .lowest) c.remaining c

/-- With more levels than tokens the bound is not met. -/
theorem inStep_exprUpTo_expr {levels : Nat} (h : c.ahead.length < levels) (power : Power) :
    InStep 1 (exprUpTo lang levels power) (expr lang power) c :=
  (inStep_exprUpTo h (Nat.lt_succ_self _) power).of_eq rfl rfl

/-- With more rounds than tokens the bound is not met. -/
theorem inStep_followExpr_bounded {inner : Parse Expr} {rounds : Nat}
    (hinner : InStepAfter c 1 inner (expr lang .lowest)) (h : c.ahead.length < rounds)
    (power : Power) (left : Expr) :
    InStep 0 (followExpr lang inner power rounds left) ((boundedExprs lang).follow power left) c :=
  (inStep_followExpr hinner h (Nat.lt_succ_self _) power left).of_eq rfl rfl

/-- With more rounds than tokens the bound is not met. -/
theorem inStep_arguments_bounded {rounds : Nat} (h : c.ahead.length < rounds) :
    InStep 0 (arguments (expr lang .lowest) rounds) (boundedExprs lang).arguments c :=
  (inStep_arguments (inStep_expr .lowest) (fun _ _ => inStep_expr .lowest) h
    (Nat.lt_succ_self _)).of_eq rfl rfl

/-- The bounded readers solve the equations in which nothing is bounded. -/
theorem unbounded_boundedExprs : (boundedExprs lang).Unbounded lang := by
  have hexpr (d : Cursor) : InStepAfter d 1 (expr lang .lowest) (expr lang .lowest) :=
    fun e _ => inStep_expr .lowest
  refine ⟨fun power => funext fun c => ?_, fun power => funext fun left => funext fun c => ?_,
    funext fun c => ?_⟩
  · let inner := exprUpTo lang c.ahead.length .lowest
    have hinner : InStepAfter c 1 inner (expr lang .lowest) :=
      fun d hd => inStep_exprUpTo_expr hd .lowest
    have hopened : InStep 1
        (openExpr lang inner >>= fun left => do
          followExpr lang inner power (← look Cursor.remaining) left)
        (openExpr lang (expr lang .lowest) >>= (boundedExprs lang).follow power) c :=
      .bind (inStep_openExpr hinner) fun left d hd =>
        (inStep_followExpr_bounded (hinner.of_le (Nat.le_of_lt hd)) (Nat.lt_succ_self _) power
          left).of_eq rfl rfl
    exact hopened.same
  · have hcall : InStep 1 (call (expr lang .lowest) left)
        (callWith (boundedExprs lang).arguments left) c :=
      inStep_call (hexpr c) left
    have hagain (left : Expr) : InStepAfter c 0
        (followExpr lang (expr lang .lowest) power c.ahead.length left)
        ((boundedExprs lang).follow power left) :=
      fun d hd => inStep_followExpr_bounded (hexpr d) hd power left
    exact (inStep_followRound left hcall hagain power).same
  · have hone : InStep 1 (argument (expr lang .lowest)) (argument (expr lang .lowest)) c :=
      inStep_argument (inStep_expr .lowest) (hexpr c)
    have hagain : InStepAfter c 0 (arguments (expr lang .lowest) c.ahead.length)
        (boundedExprs lang).arguments :=
      fun d hd => inStep_arguments_bounded hd
    exact (inStep_argumentsRound hone hagain).same

/-- Readers that nothing bounds are in step, by induction on the tokens that are left. The
arguments come last: the first of them is an expression at the same cursor. -/
theorem ExprReaders.Unbounded.inStep {r r' : ExprReaders} (h : r.Unbounded lang)
    (h' : r'.Unbounded lang) : (∀ power, InStep 1 (r.expr power) (r'.expr power) c) ∧
      (∀ power left, InStep 0 (r.follow power left) (r'.follow power left) c) ∧
      InStep 0 r.arguments r'.arguments c := by
  induction hleft : c.ahead.length using Nat.strongRecOn generalizing c with
  | _ n ih =>
    subst hleft
    have hexpr (power : Power) : InStepAfter c 1 (r.expr power) (r'.expr power) :=
      fun d hd => (ih _ hd rfl).1 power
    have hfollow (power : Power) (left : Expr) :
        InStepAfter c 0 (r.follow power left) (r'.follow power left) :=
      fun d hd => (ih _ hd rfl).2.1 power left
    have harguments : InStepAfter c 0 r.arguments r'.arguments := fun d hd => (ih _ hd rfl).2.2
    have hhere (power : Power) : InStep 1 (r.expr power) (r'.expr power) c := by
      rw [h.expr_eq, h'.expr_eq]
      exact .bind (inStep_openExpr (hexpr .lowest)) fun left d hd => hfollow power left d hd
    refine ⟨hhere, fun power left => ?_, ?_⟩
    · rw [h.follow_eq, h'.follow_eq]
      exact inStep_followRound left (inStep_callWith harguments left) (hfollow power) power
    · rw [h.arguments_eq, h'.arguments_eq]
      exact inStep_argumentsRound (inStep_argument (hhere .lowest) (hexpr .lowest)) harguments

/-- **Reading an expression comes to an end**: the equations have one solution. -/
theorem unbounded_exprs_iff {r : ExprReaders} : r.Unbounded lang ↔ r = boundedExprs lang := by
  refine ⟨fun h => ?_, fun h => h ▸ unbounded_boundedExprs⟩
  have hsame (c : Cursor) := h.inStep (c := c) unbounded_boundedExprs
  refine ExprReaders.ext ?_ ?_ ?_
  · funext power c
    exact ((hsame c).1 power).same
  · funext power left c
    exact ((hsame c).2.1 power left).same
  · funext c
    exact (hsame c).2.2.same

/-! ## Adjacent strings -/

/-- One round of the loop over adjacent strings, with what is done next. -/
def literalsRound (again : Parse (List Token)) : Parse (List Token) := do
  if (← look Cursor.kind).isText then
    let first ← advance
    let rest ← again
    pure (first :: rest)
  else pure []

theorem inStep_literalsRound {again again' : Parse (List Token)}
    (h : InStepAfter c 0 again again') :
    InStep 0 (literalsRound again) (literalsRound again') c := by
  unfold literalsRound
  refine .look_bind ?_
  split
  · next htext =>
    have hkind : c.kind ≠ .eof := fun heof => by rw [heof] at htext; cases htext
    refine (InStep.bind (.advance hkind) fun first d hd => ?_).weaken
    exact .bind (h d hd) fun rest _ _ => .pure _
  · exact .pure []

theorem takeWhile_isText_eq :
    takeWhile TokenKind.isText = literalsRound (takeWhile TokenKind.isText) := by
  funext c
  rw [literalsRound, look_bind_run]
  cases hahead : c.ahead with
  | nil =>
    rw [takeWhile_run, Cursor.kind_of_ahead_nil hahead, hahead]
    rfl
  | cons t ts =>
    have hnext : takeWhile TokenKind.isText c.advance =
        (.ok (ts.takeWhile fun t => t.kind.isText),
          c.advance.skip (ts.takeWhile fun t => t.kind.isText).length) := by
      rw [takeWhile_run, Cursor.ahead_advance, hahead, List.drop_one, List.tail_cons]
    rw [takeWhile_run, Cursor.kind_of_ahead hahead, hahead]
    cases htext : t.kind.isText with
    | false => simp [htext]
    | true =>
      have htaken : ((t :: ts).takeWhile fun t => t.kind.isText) =
          t :: ts.takeWhile fun t => t.kind.isText := List.takeWhile_cons_of_pos htext
      rw [htaken, if_pos rfl, advance_bind_run, bind_run_of_ok hnext,
        Cursor.current_of_ahead hahead]
      rfl

/-- **The loop over adjacent strings comes to an end.** -/
theorem literalsRound_iff {literals : Parse (List Token)} :
    literals = literalsRound literals ↔ literals = takeWhile TokenKind.isText := by
  refine ⟨fun h => funext fun c => ?_, fun h => h ▸ takeWhile_isText_eq⟩
  suffices hsame : InStep 0 literals (takeWhile TokenKind.isText) c from hsame.same
  induction hleft : c.ahead.length using Nat.strongRecOn generalizing c with
  | _ n ih =>
    subst hleft
    rw [h, takeWhile_isText_eq]
    exact inStep_literalsRound fun d hd => ih _ hd d rfl

/-! ## Scripts -/

/-- The statements up to the end of a script, with as many rounds as tokens are left. -/
def boundedStmts (lang : Language) : Parse (List Stmt) := fun c => stmts lang c.remaining c

theorem boundedStmts_eq : boundedStmts lang = stmtsRound (stmt lang) (boundedStmts lang) := by
  funext c
  have hagain : InStepAfter c 0 (stmts lang c.ahead.length) (boundedStmts lang) :=
    fun d hd => (inStep_stmts hd (Nat.lt_succ_self _)).of_eq rfl rfl
  exact (inStep_stmtsRound hagain).same

/-- **The loop over statements comes to an end.** -/
theorem stmtsRound_iff {body : Parse (List Stmt)} :
    body = stmtsRound (stmt lang) body ↔ body = boundedStmts lang := by
  refine ⟨fun h => funext fun c => ?_, fun h => h ▸ boundedStmts_eq⟩
  suffices hsame : InStep 0 body (boundedStmts lang) c from hsame.same
  induction hleft : c.ahead.length using Nat.strongRecOn generalizing c with
  | _ n ih =>
    subst hleft
    rw [h, boundedStmts_eq]
    exact inStep_stmtsRound fun d hd => ih _ hd d rfl

/-- A whole script, with how its statements are read. -/
def scriptWith (stmts : Parse (List Stmt)) (file : String) : Parse Block := do
  let body ← stmts
  let stop ← look Cursor.position
  pure ⟨body, ⟨⟨0, file⟩, stop⟩⟩

theorem script_eq (file : String) : script lang file = scriptWith (boundedStmts lang) file := rfl

/-! ## The end -/

/-- **Reading a list of tokens comes to an end, and it moves on.**

The list is closed at its end, and at every place in it the cursor has the token of that place.  A
statement, an expression or an annotation that is read from a place leaves the cursor at a place
of the list that is not before it, and behind it unless it is refused.  The equations by which the
readers call one another, and those of the loops over adjacent strings and over statements, have
one solution each, and the script is read by the one for its statements. -/
theorem reading_ends (lang : Language) (tokens : List Token) (file : String) :
    let start := Cursor.ofTokens tokens file
    (start.tokens = tokens ++
        (if tokens.getLast?.map Token.kind = some .eof then [] else [start.closing]) ∧
      start.tokens.getLast?.map Token.kind = some .eof ∧
      ∀ i < start.tokens.length, start.tokens[i]? = some (start.skip i).current ∧
        (start.skip i).tokens = start.tokens.drop i) ∧
    (MovesOn start (stmt lang) ∧ (∀ power, MovesOn start (expr lang power)) ∧
      ∀ power, MovesOn start (type lang power)) ∧
    ((∀ r : TypeReaders, r.Unbounded lang ↔ r = boundedTypes lang) ∧
      (∀ r : ExprReaders, r.Unbounded lang ↔ r = boundedExprs lang) ∧
      (∀ literals, literals = literalsRound literals ↔
        literals = takeWhile TokenKind.isText) ∧
      ∀ body, body = stmtsRound (stmt lang) body ↔ body = boundedStmts lang) ∧
    readTokens lang tokens file = (scriptWith (boundedStmts lang) file start).1 := by
  intro start
  refine ⟨⟨Cursor.tokens_ofTokens tokens file, ?_, fun i hi => ?_⟩,
    ⟨movesOn_of_inStep fun _ => inStep_stmt,
      fun power => movesOn_of_inStep fun _ => inStep_expr power,
      fun power => movesOn_of_inStep fun _ => inStep_type power⟩,
    ⟨fun _ => unbounded_types_iff, fun _ => unbounded_exprs_iff, fun _ => literalsRound_iff,
      fun _ => stmtsRound_iff⟩, ?_⟩
  · rw [Cursor.getLast?_tokens]
    rfl
  · rw [Cursor.length_tokens] at hi
    have hplace : i ≤ start.ahead.length := Nat.le_of_lt_succ hi
    exact ⟨Cursor.getElem?_tokens hplace, Cursor.tokens_skip hplace⟩
  · rw [readTokens, script_eq]

end Reading
end SlotTree

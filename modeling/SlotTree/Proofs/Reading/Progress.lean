import SlotTree.Proofs.Reading.Sound

/-!
# Readers move on

A reader leaves its cursor at the tokens where it was or further on, never past the closing one,
and where it answers with an annotation, an expression or a statement, it has taken a token.  What
a reader takes a token for is not the closing token, which stays where it is (`InStep.expect`,
`InStep.advance`).

Like agreement (`Setting.Agree`), this is said of two readers at once, but of one cursor:
`InStep least p q c` says that `p` and `q` do the same at `c`, and that they move on by `least`
tokens at least if they answer.  With one reader taken twice it is the statement about progress.
With two readers it is what makes the bounds of loops and nesting irrelevant: a reader that calls
another one behind a token needs to be in step only if the two that are called are in step where
fewer tokens are left (`InStepAfter`), so readers that are tied together with different bounds, or
with none, are in step by induction on the tokens that are left.

The readers that loop are taken apart into their rounds first.  A round (`followTypeRound`,
`argumentsRound`, `followRound`, `stmtsRound`) is given what it does next as a reader.
-/

namespace SlotTree

/-! ## Readers in step -/

namespace Parse

variable {α β : Type} {least : Nat} {c : Cursor}

/-- At the cursor the two readers do the same, and they move on, by so many tokens at least where
they answer. -/
structure InStep (least : Nat) (p q : Parse α) (c : Cursor) : Prop where
  same : p c = q c
  moves : ∃ n ≤ c.ahead.length, (p c).2 = c.skip n ∧ ∀ a, (p c).1 = .ok a → least ≤ n

/-- The two readers are in step wherever fewer tokens are left than at the cursor. -/
def InStepAfter (c : Cursor) (least : Nat) (p q : Parse α) : Prop :=
  ∀ d, d.ahead.length < c.ahead.length → InStep least p q d

theorem InStepAfter.of_le {p q : Parse α} {d : Cursor} (h : InStepAfter c least p q)
    (hd : d.ahead.length ≤ c.ahead.length) : InStepAfter d least p q :=
  fun e he => h e (Nat.lt_of_lt_of_le he hd)

namespace InStep

/-- A reader that refuses where it stands. -/
theorem refuse {p : Parse α} (h : ∃ fault, p c = (.error fault, c)) : InStep least p p c := by
  obtain ⟨fault, h⟩ := h
  refine ⟨rfl, 0, Nat.zero_le _, ?_, ?_⟩
  · rw [h, Cursor.skip_zero]
  · intro a ha
    rw [h] at ha
    cases ha

theorem fail (fault : Fault) : InStep least (fail fault : Parse α) (Parse.fail fault) c :=
  refuse ⟨_, rfl⟩

theorem unexpected : InStep least (unexpected : Parse α) Parse.unexpected c := refuse ⟨_, rfl⟩

theorem failHere (cause : Cause) :
    InStep least (failHere cause : Parse α) (Parse.failHere cause) c :=
  refuse ⟨_, rfl⟩

theorem pure (a : α) : InStep 0 (Pure.pure a : Parse α) (Pure.pure a) c :=
  ⟨rfl, 0, Nat.zero_le _, rfl, fun _ _ => Nat.zero_le _⟩

theorem lift (outcome : Except Fault α) : InStep 0 (lift outcome) (Parse.lift outcome) c := by
  cases outcome with
  | ok a => exact pure a
  | error fault => exact fail fault

/-- **A token that does not close the list is passed.** -/
theorem advance (h : c.kind ≠ .eof) : InStep 1 advance Parse.advance c := by
  obtain ⟨t, ts, hahead, -⟩ := Cursor.exists_ahead_of_kind_ne_eof h
  refine ⟨rfl, 1, ?_, rfl, fun _ _ => Nat.le_refl 1⟩
  rw [hahead, List.length_cons]
  exact Nat.le_add_left 1 _

/-- The closing token is not passed. -/
theorem advance_weak : InStep 0 Parse.advance Parse.advance c := by
  cases hahead : c.ahead with
  | nil =>
    refine ⟨rfl, 0, Nat.zero_le _, ?_, fun _ _ => Nat.le_refl 0⟩
    simp only [Parse.advance, Cursor.advance, hahead, Cursor.skip_zero]
  | cons t ts =>
    refine ⟨rfl, 1, ?_, rfl, fun _ _ => Nat.zero_le 1⟩
    rw [hahead, List.length_cons]
    exact Nat.le_add_left 1 _

theorem expect {kind : TokenKind} (h : kind ≠ .eof) :
    InStep 1 (expect kind) (Parse.expect kind) c := by
  by_cases hkind : c.kind = kind
  · have hrun : Parse.expect kind c = Parse.advance c := by
      simp only [Parse.expect, expectOr, hkind, beq_self_eq_true, if_true]
    obtain ⟨-, hmoves⟩ := advance (c := c) (hkind ▸ h)
    exact ⟨rfl, hrun ▸ hmoves⟩
  · refine refuse ⟨c.unexpected, ?_⟩
    simp only [Parse.expect, expectOr, beq_iff_eq, hkind, if_false]

/-- A stretch of tokens, of which the first one is there. -/
theorem takeWhile {p : TokenKind → Bool} (hclosing : p .eof = false) (h : p c.kind = true) :
    InStep 1 (takeWhile p) (Parse.takeWhile p) c := by
  refine ⟨rfl, (c.ahead.takeWhile fun t => p t.kind).length, ?_, ?_, fun _ _ => ?_⟩
  · exact (List.takeWhile_prefix _).length_le
  · rw [takeWhile_run]
  · have hne : c.kind ≠ .eof := fun heof => by simp [heof, hclosing] at h
    obtain ⟨t, ts, hahead, hkind⟩ := Cursor.exists_ahead_of_kind_ne_eof hne
    rw [hahead, List.takeWhile_cons_of_pos (by rwa [hkind]), List.length_cons]
    exact Nat.le_add_left 1 _

/-- Being in step is about what the readers do at the cursor. -/
theorem of_eq {p p' q q' : Parse α} (h : InStep least p q c) (hp : p' c = p c) (hq : q' c = q c) :
    InStep least p' q' c :=
  ⟨by rw [hp, hq, h.same], by rw [hp]; exact h.moves⟩

theorem weaken {p q : Parse α} (h : InStep least p q c) : InStep 0 p q c := by
  obtain ⟨hsame, n, hn, hstop, -⟩ := h
  exact ⟨hsame, n, hn, hstop, fun _ _ => Nat.zero_le n⟩

/-- **Readers in step one after the other are in step.** The second ones have to be in step only
where the first ones may leave the cursor. -/
theorem bind {p q : Parse α} {f g : α → Parse β} (h : InStep least p q c)
    (hnext : ∀ a d, d.ahead.length + least ≤ c.ahead.length → InStep 0 (f a) (g a) d) :
    InStep least (p >>= f) (q >>= g) c := by
  obtain ⟨hsame, n, hn, hstop, hleast⟩ := h
  cases hp : p c with
  | mk outcome c' =>
    rw [hp] at hstop hleast
    obtain rfl : c' = c.skip n := hstop
    have hq : q c = (outcome, c.skip n) := by rw [← hsame, hp]
    cases outcome with
    | error fault =>
      have hrun := bind_run_of_error (f := f) hp
      exact ⟨hrun.trans (bind_run_of_error hq).symm, n, hn, by rw [hrun], by simp [hrun]⟩
    | ok a =>
      have hmoved : least ≤ n := hleast a rfl
      have hleft : (c.skip n).ahead.length = c.ahead.length - n := by
        rw [Cursor.ahead_skip, List.length_drop]
      obtain ⟨hsame', m, hm, hstop', -⟩ := hnext a (c.skip n) (by omega)
      have hrun := bind_run_of_ok (f := f) hp
      refine ⟨by rw [hrun, hsame', bind_run_of_ok hq], n + m, by omega, ?_, fun _ _ => by omega⟩
      rw [hrun, hstop', Cursor.skip_skip]

theorem look_bind {f : Cursor → α} {g g' : α → Parse β}
    (h : InStep least (g (f c)) (g' (f c)) c) :
    InStep least (look f >>= g) (look f >>= g') c :=
  ⟨h.same, h.moves⟩

end InStep
end Parse

namespace Reading

open Parse

variable {lang : Language} {c : Cursor}

/-! ## Annotations -/

/-- One round of the loop over what follows an annotation, with what is done at a bracket and what
is done next. -/
def followTypeRound (lang : Language) (subscript again : Ty → Parse Ty) (power : Power)
    (left : Ty) : Parse Ty := do
  let kind ← look Cursor.kind
  match lang.grammar.typePower? kind with
  | none => pure left
  | some next =>
    if next.rank ≤ power.rank then pure left
    else
      match lang.grammar.typeFollowing? kind with
      | none => unexpected
      | some (_, .subscript) => do
        let left ← subscript left
        again left
      | some (_, .union) => unionType

theorem followType_succ (item : Parse Ty) (power : Power) (rounds : Nat) :
    followType lang item power (rounds + 1) =
      followTypeRound lang (subscriptType item) (followType lang item power rounds) power := rfl

theorem inStep_symbolType : InStep 1 (symbolType lang) (symbolType lang) c := by
  unfold symbolType
  refine .bind (.expect (by decide)) fun token d _ => ?_
  cases lang.builtins.find? token.text with
  | none => exact .fail _
  | some constructor =>
    simp only
    cases (constructor token.span).asType? with
    | none => exact .fail _
    | some t => exact .pure t

theorem inStep_noneType : InStep 1 noneType noneType c :=
  .bind (.expect (by decide)) fun _ _ _ => .pure _

theorem inStep_openType : InStep 1 (openType lang) (openType lang) c := by
  unfold openType
  refine .look_bind ?_
  cases lang.grammar.typeOpening? c.kind with
  | none => exact .unexpected
  | some opening =>
    cases opening with
    | symbol => exact inStep_symbolType
    | none => exact inStep_noneType

theorem inStep_subscriptType {item item' : Parse Ty} (h : InStepAfter c 1 item item') (left : Ty) :
    InStep 1 (subscriptType item left) (subscriptType item' left) c := by
  unfold subscriptType
  refine .bind (.expect (by decide)) fun bracket d hd => ?_
  split
  · exact .fail _
  · refine (InStep.bind (h d hd) fun type e _ => ?_).weaken
    exact (InStep.bind (.expect (by decide)) fun _ _ _ => .pure _).weaken

theorem inStep_unionType : InStep 1 unionType unionType c :=
  .bind (.expect (by decide)) fun _ _ _ => .fail _

theorem inStep_followTypeRound {subscript subscript' again again' : Ty → Parse Ty} (left : Ty)
    (hsubscript : InStep 1 (subscript left) (subscript' left) c)
    (hagain : ∀ left, InStepAfter c 0 (again left) (again' left)) (power : Power) :
    InStep 0 (followTypeRound lang subscript again power left)
      (followTypeRound lang subscript' again' power left) c := by
  unfold followTypeRound
  refine .look_bind ?_
  cases lang.grammar.typePower? c.kind with
  | none => exact .pure left
  | some next =>
    simp only
    split
    · exact .pure left
    · cases lang.grammar.typeFollowing? c.kind with
      | none => exact .unexpected
      | some entry =>
        obtain ⟨_, following⟩ := entry
        cases following with
        | subscript => exact (hsubscript.bind fun left d hd => hagain left d hd).weaken
        | union => exact inStep_unionType.weaken

/-- The rounds of the loop do not matter, as long as there are more than tokens. -/
theorem inStep_followType {item item' : Parse Ty} {rounds rounds' : Nat}
    (hitem : InStepAfter c 1 item item') (h : c.ahead.length < rounds)
    (h' : c.ahead.length < rounds') (power : Power) (left : Ty) :
    InStep 0 (followType lang item power rounds left) (followType lang item' power rounds' left)
      c := by
  induction rounds generalizing rounds' c left with
  | zero => omega
  | succ rounds ih =>
    obtain _ | rounds' := rounds'
    · omega
    rw [followType_succ, followType_succ]
    exact inStep_followTypeRound left (inStep_subscriptType hitem left) (fun left d hd =>
      ih (hitem.of_le (Nat.le_of_lt hd)) (by omega) (by omega) left) power

/-- The levels of nesting do not matter, as long as there are more than tokens. -/
theorem inStep_typeUpTo {levels levels' : Nat} (h : c.ahead.length < levels)
    (h' : c.ahead.length < levels') (power : Power) :
    InStep 1 (typeUpTo lang levels power) (typeUpTo lang levels' power) c := by
  induction levels generalizing levels' c power with
  | zero => omega
  | succ levels ih =>
    obtain _ | levels' := levels'
    · omega
    unfold typeUpTo
    refine .bind inStep_openType fun left d hd => .look_bind ?_
    have hitem : InStepAfter d 1 (typeUpTo lang levels .lowest) (typeUpTo lang levels' .lowest) :=
      fun e he => ih (by omega) (by omega) .lowest
    exact inStep_followType hitem (Nat.lt_succ_self _) (Nat.lt_succ_self _) power left

theorem inStep_type (power : Power) : InStep 1 (type lang power) (type lang power) c :=
  (inStep_typeUpTo (Nat.lt_succ_self _) (Nat.lt_succ_self _) power).of_eq rfl rfl

theorem inStep_typeExpr : InStep 1 (typeExpr lang) (typeExpr lang) c :=
  .look_bind (.bind (inStep_type .lowest) fun _ _ _ => .look_bind (.pure _))

/-! ## Constants, names and groups -/

theorem inStep_number (h : c.kind ≠ .eof) : InStep 1 number number c := by
  unfold number
  refine .bind (.advance h) fun token d _ => ?_
  cases Number.read token.text with
  | ok value => exact .pure _
  | error cause => exact .fail _

theorem inStep_text (h : c.kind.isText = true) : InStep 1 text text c := by
  unfold text
  refine .look_bind (.bind (.takeWhile rfl h) fun tokens d _ => ?_)
  simp only
  split
  · exact .fail _
  split
  · exact .fail _
  split
  · exact .fail _
  · exact .pure _

theorem inStep_constant : InStep 1 constant constant c := by
  have hliteral : ∀ value : Literal, c.kind ≠ .eof → InStep 1
      (do let token ← advance; pure (Expr.ofLiteral value token.span))
      (do let token ← advance; pure (Expr.ofLiteral value token.span)) c :=
    fun value h => .bind (.advance h) fun _ _ _ => .pure _
  unfold constant
  refine .look_bind ?_
  split
  · next h => exact hliteral _ (by rw [h]; decide)
  · next h => exact hliteral _ (by rw [h]; decide)
  · next h => exact hliteral _ (by rw [h]; decide)
  · next h => exact inStep_number (by rw [h]; decide)
  · next h => exact inStep_text (by rw [h]; rfl)
  · next h => exact inStep_text (by rw [h]; rfl)
  · next h => exact inStep_text (by rw [h]; rfl)
  · exact .failHere _
  · exact .unexpected

theorem inStep_name : InStep 1 (name lang) (name lang) c := by
  unfold name
  refine .bind (.expect (by decide)) fun token d _ => ?_
  cases lang.builtins.find? token.text with
  | none => exact .pure _
  | some constructor => exact .pure _

theorem inStep_group {inner inner' : Parse Expr} (h : InStepAfter c 1 inner inner') :
    InStep 1 (group inner) (group inner') c := by
  unfold group
  refine .bind (.expect (by decide)) fun opening d hd => .look_bind ?_
  split
  · exact .fail _
  · refine (InStep.bind (h d hd) fun e d' _ => .look_bind ?_).weaken
    split
    · exact .fail _
    · exact .fail _
    · exact (InStep.bind (.expect (by decide)) fun _ _ _ => .pure _).weaken

/-! ## Calls -/

/-- One round of the loop over the arguments of a call, with how one is read and what is done
next. -/
def argumentsRound (one : Parse Argument) (again : Parse (List Argument)) :
    Parse (List Argument) := do
  if (← look Cursor.kind) == .closeParen then pure []
  else
    let first ← one
    if (← look Cursor.kind) == .comma then
      let _ ← advance
      let rest ← again
      pure (first :: rest)
    else pure [first]

theorem arguments_succ (inner : Parse Expr) (rounds : Nat) :
    arguments inner (rounds + 1) = argumentsRound (argument inner) (arguments inner rounds) := rfl

/-- A call of an expression, with how its arguments are read. -/
def callWith (arguments : Parse (List Argument)) (left : Expr) : Parse Expr := do
  let _ ← expect .openParen
  let args ← arguments
  let closing ← expect .closeParen
  let callee ← lift (calleeOf left closing.span.stop)
  let bound ← lift (bindArguments closing.span.start callee args)
  pure bound.markInvoked

theorem call_eq (inner : Parse Expr) (left : Expr) :
    call inner left = callWith (fun c => arguments inner c.remaining c) left := rfl

theorem inStep_argument {inner inner' : Parse Expr} (h : InStep 1 inner inner' c)
    (hafter : InStepAfter c 1 inner inner') : InStep 1 (argument inner) (argument inner') c := by
  unfold argument
  refine .look_bind ?_
  simp only [id]
  split
  · exact .fail _
  · exact .fail _
  · split
    · next hkeyword =>
      have hkind : c.kind = .identifier := by
        rw [Bool.and_eq_true, beq_iff_eq] at hkeyword
        exact hkeyword.1
      refine .bind (.advance (by rw [hkind]; decide)) fun keyword d hd => ?_
      refine .bind .advance_weak fun _ e he => ?_
      exact (InStep.bind (hafter e (by omega)) fun value _ _ => .pure _).weaken
    · refine .bind h fun value d _ => .look_bind ?_
      split
      · exact .fail _
      · exact .pure _

theorem inStep_argumentsRound {one one' : Parse Argument} {again again' : Parse (List Argument)}
    (hone : InStep 1 one one' c) (hagain : InStepAfter c 0 again again') :
    InStep 0 (argumentsRound one again) (argumentsRound one' again') c := by
  unfold argumentsRound
  refine .look_bind ?_
  split
  · exact .pure []
  · refine (InStep.bind hone fun first d hd => .look_bind ?_).weaken
    split
    · refine .bind .advance_weak fun _ e he => ?_
      exact .bind (hagain e (by omega)) fun rest _ _ => .pure _
    · exact .pure _

/-- The rounds of the loop do not matter, as long as there are more than tokens. -/
theorem inStep_arguments {inner inner' : Parse Expr} {rounds rounds' : Nat}
    (hinner : InStep 1 inner inner' c) (hafter : InStepAfter c 1 inner inner')
    (h : c.ahead.length < rounds) (h' : c.ahead.length < rounds') :
    InStep 0 (arguments inner rounds) (arguments inner' rounds') c := by
  induction rounds generalizing rounds' c with
  | zero => omega
  | succ rounds ih =>
    obtain _ | rounds' := rounds'
    · omega
    rw [arguments_succ, arguments_succ]
    exact inStep_argumentsRound (inStep_argument hinner hafter) fun d hd =>
      ih (hafter d hd) (hafter.of_le (Nat.le_of_lt hd)) (by omega) (by omega)

theorem inStep_callWith {args args' : Parse (List Argument)} (h : InStepAfter c 0 args args')
    (left : Expr) : InStep 1 (callWith args left) (callWith args' left) c := by
  unfold callWith
  refine .bind (.expect (by decide)) fun _ d hd => .bind (h d hd) fun args _ _ => ?_
  refine (InStep.bind (.expect (by decide)) fun closing _ _ => ?_).weaken
  exact .bind (.lift _) fun callee _ _ => .bind (.lift _) fun bound _ _ => .pure _

/-! ## Expressions -/

/-- One round of the loop over what follows an expression, with how a call is read and what is
done next. -/
def followRound (lang : Language) (call again : Expr → Parse Expr) (power : Power)
    (left : Expr) : Parse Expr := do
  let kind ← look Cursor.kind
  match lang.grammar.power? kind with
  | none => pure left
  | some next =>
    if next.rank ≤ power.rank then pure left
    else
      match lang.grammar.following? kind with
      | none => unexpected
      | some (_, .call) => do
        let left ← call left
        again left
      | some (_, .unsupported) => unsupportedFollowing left

theorem followExpr_succ (inner : Parse Expr) (power : Power) (rounds : Nat) :
    followExpr lang inner power (rounds + 1) =
      followRound lang (call inner) (followExpr lang inner power rounds) power := rfl

theorem inStep_unsupportedOpening : InStep 1 unsupportedOpening unsupportedOpening c := by
  cases h : openingNode? c with
  | none => exact .refuse ⟨c.unexpected, by simp only [unsupportedOpening, h]⟩
  | some node =>
    exact .refuse ⟨notSupported node c.position, by simp only [unsupportedOpening, h]⟩

theorem inStep_unsupportedFollowing (left : Expr) :
    InStep 0 (unsupportedFollowing left) (unsupportedFollowing left) c := by
  cases h : followingNode? c.kind with
  | none => exact .refuse ⟨c.unexpected, by simp only [unsupportedFollowing, h]⟩
  | some node =>
    exact .refuse ⟨notSupported node left.span.start, by simp only [unsupportedFollowing, h]⟩

theorem inStep_openExpr {inner inner' : Parse Expr} (h : InStepAfter c 1 inner inner') :
    InStep 1 (openExpr lang inner) (openExpr lang inner') c := by
  unfold openExpr
  refine .look_bind ?_
  cases lang.grammar.opening? c.kind with
  | none => exact .unexpected
  | some opening =>
    cases opening with
    | constant => exact inStep_constant
    | name => exact inStep_name
    | group => exact inStep_group h
    | unsupported => exact inStep_unsupportedOpening

theorem inStep_followRound {call call' again again' : Expr → Parse Expr} (left : Expr)
    (hcall : InStep 1 (call left) (call' left) c)
    (hagain : ∀ left, InStepAfter c 0 (again left) (again' left)) (power : Power) :
    InStep 0 (followRound lang call again power left) (followRound lang call' again' power left)
      c := by
  unfold followRound
  refine .look_bind ?_
  cases lang.grammar.power? c.kind with
  | none => exact .pure left
  | some next =>
    simp only
    split
    · exact .pure left
    · cases lang.grammar.following? c.kind with
      | none => exact .unexpected
      | some entry =>
        obtain ⟨_, following⟩ := entry
        cases following with
        | call => exact (hcall.bind fun left d hd => hagain left d hd).weaken
        | unsupported => exact inStep_unsupportedFollowing left

theorem inStep_call {inner inner' : Parse Expr} (h : InStepAfter c 1 inner inner')
    (left : Expr) : InStep 1 (call inner left) (call inner' left) c := by
  rw [call_eq, call_eq]
  refine inStep_callWith (fun d hd => ?_) left
  have hargs := inStep_arguments (h d hd) (h.of_le (Nat.le_of_lt hd))
    (Nat.lt_succ_self d.ahead.length) (Nat.lt_succ_self _)
  exact hargs.of_eq rfl rfl

/-- The rounds of the loop do not matter, as long as there are more than tokens. -/
theorem inStep_followExpr {inner inner' : Parse Expr} {rounds rounds' : Nat}
    (hinner : InStepAfter c 1 inner inner') (h : c.ahead.length < rounds)
    (h' : c.ahead.length < rounds') (power : Power) (left : Expr) :
    InStep 0 (followExpr lang inner power rounds left) (followExpr lang inner' power rounds' left)
      c := by
  induction rounds generalizing rounds' c left with
  | zero => omega
  | succ rounds ih =>
    obtain _ | rounds' := rounds'
    · omega
    rw [followExpr_succ, followExpr_succ]
    exact inStep_followRound left (inStep_call hinner left) (fun left d hd =>
      ih (hinner.of_le (Nat.le_of_lt hd)) (by omega) (by omega) left) power

/-- The levels of nesting do not matter, as long as there are more than tokens. -/
theorem inStep_exprUpTo {levels levels' : Nat} (h : c.ahead.length < levels)
    (h' : c.ahead.length < levels') (power : Power) :
    InStep 1 (exprUpTo lang levels power) (exprUpTo lang levels' power) c := by
  induction levels generalizing levels' c power with
  | zero => omega
  | succ levels ih =>
    obtain _ | levels' := levels'
    · omega
    have hinner : InStepAfter c 1 (exprUpTo lang levels .lowest) (exprUpTo lang levels' .lowest) :=
      fun d hd => ih (by omega) (by omega) .lowest
    unfold exprUpTo
    refine .bind (inStep_openExpr hinner) fun left d hd => .look_bind ?_
    exact inStep_followExpr (hinner.of_le (Nat.le_of_lt hd)) (Nat.lt_succ_self _)
      (Nat.lt_succ_self _) power left

theorem inStep_expr (power : Power) : InStep 1 (expr lang power) (expr lang power) c :=
  (inStep_exprUpTo (Nat.lt_succ_self _) (Nat.lt_succ_self _) power).of_eq rfl rfl

theorem inStep_valueExpr : InStep 1 (valueExpr lang) (valueExpr lang) c := by
  unfold valueExpr
  refine .bind (inStep_expr .lowest) fun value d _ => .look_bind ?_
  split
  · exact .fail _
  · exact .pure value

/-! ## Statements -/

theorem inStep_expressionStmt : InStep 1 (expressionStmt lang) (expressionStmt lang) c := by
  unfold expressionStmt
  refine .bind inStep_valueExpr fun value d _ => ?_
  cases Stmt.ofExpr value value.span with
  | ok s => exact .pure s
  | error fault => exact .fail _

theorem inStep_withType (s : Stmt) (declared : Ty × Span) :
    InStep 0 (withType s declared) (withType s declared) c := by
  unfold withType
  split
  · exact .pure _
  · exact .fail _
  · exact .pure _

theorem inStep_withValue (s : Stmt) (value : Expr) :
    InStep 0 (withValue s value) (withValue s value) c := by
  unfold withValue
  split
  · exact .pure _
  · exact .fail _
  · exact .pure _

theorem inStep_annotatedStmt : InStep 1 (annotatedStmt lang) (annotatedStmt lang) c := by
  unfold annotatedStmt
  refine .look_bind ?_
  split
  · exact .failHere _
  · refine .bind (.expect (by decide)) fun target _ _ => ?_
    refine (InStep.bind (.expect (by decide)) fun _ _ _ => ?_).weaken
    refine (InStep.bind inStep_typeExpr fun declared _ _ => .look_bind ?_).weaken
    split
    · exact inStep_withType _ _
    · refine (InStep.bind (.expect (by decide)) fun _ _ _ => ?_).weaken
      refine (InStep.bind inStep_valueExpr fun value _ _ => ?_).weaken
      exact .bind (inStep_withType _ _) fun s _ _ => inStep_withValue s value

theorem inStep_unsupportedStmt : InStep 1 unsupportedStmt unsupportedStmt c := by
  cases h : statementNode? c with
  | none => exact .refuse ⟨c.unexpected, by simp only [unsupportedStmt, h]⟩
  | some node =>
    exact .refuse ⟨notSupported node c.position, by simp only [unsupportedStmt, h]⟩

theorem inStep_stmtBody : InStep 1 (stmtBody lang) (stmtBody lang) c := by
  unfold stmtBody
  refine .look_bind ?_
  split
  · exact inStep_unsupportedStmt
  · cases classify (id c) with
    | annotated => exact inStep_annotatedStmt
    | assignment node => exact .fail _
    | expression => exact inStep_expressionStmt

theorem inStep_lineEnd : InStep 0 lineEnd lineEnd c := by
  unfold lineEnd
  refine .look_bind ?_
  split
  · refine .bind .advance_weak fun _ d _ => .look_bind ?_
    split
    · exact .bind .advance_weak fun _ _ _ => .pure ()
    · exact .pure ()
  · exact .bind .advance_weak fun _ _ _ => .pure ()
  · exact .pure ()
  · exact .unexpected

/-- **A statement that was read has taken a token**, its end aside. -/
theorem inStep_stmt : InStep 1 (stmt lang) (stmt lang) c :=
  .bind inStep_stmtBody fun s _ _ => .bind inStep_lineEnd fun _ _ _ => .pure s

/-- One round of the loop over the statements of a script, with how one is read and what is done
next. -/
def stmtsRound (one : Parse Stmt) (again : Parse (List Stmt)) : Parse (List Stmt) := do
  if (← look Cursor.hasTokens) then
    let first ← one
    let rest ← again
    pure (first :: rest)
  else pure []

theorem stmts_succ (rounds : Nat) :
    stmts lang (rounds + 1) = stmtsRound (stmt lang) (stmts lang rounds) := rfl

theorem inStep_stmtsRound {again again' : Parse (List Stmt)} (h : InStepAfter c 0 again again') :
    InStep 0 (stmtsRound (stmt lang) again) (stmtsRound (stmt lang) again') c := by
  unfold stmtsRound
  refine .look_bind ?_
  split
  · refine (InStep.bind inStep_stmt fun first d hd => ?_).weaken
    exact .bind (h d hd) fun rest _ _ => .pure _
  · exact .pure []

/-- The rounds of the loop do not matter, as long as there are more than tokens. -/
theorem inStep_stmts {rounds rounds' : Nat} (h : c.ahead.length < rounds)
    (h' : c.ahead.length < rounds') : InStep 0 (stmts lang rounds) (stmts lang rounds') c := by
  induction rounds generalizing rounds' c with
  | zero => omega
  | succ rounds ih =>
    obtain _ | rounds' := rounds'
    · omega
    rw [stmts_succ, stmts_succ]
    exact inStep_stmtsRound fun d hd => ih (by omega) (by omega)

end Reading
end SlotTree

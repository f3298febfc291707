import SlotTree.Proofs.Reading.Sound
import SlotTree.Proofs.Tree.Bind

/-!
# What a reader depends on

A reader sees the tokens ahead of it and, where a token is a name, the builtin of that name.  It
sees nothing else of its language than the tables, and every position that it makes known, be it
that of a fault or that of the first character of an expression, is one where a token begins.

Both are said of two readers at once.  A `Setting` consists of two languages with the same tables
and of a condition on positions, and it allows a token if the two languages take it for the same
and the condition holds where it begins.  Two readers *agree* in a setting (`Setting.Agree`) if
they do the same wherever all tokens are allowed, and if what comes of it meets the condition.
With the condition that always holds, agreement says that two languages read the same; with one
language taken twice, it says that every fault is located.

A reader that is put together from parts that agree agrees (`Agree.bind`), so the proofs below
follow the readers.  What binding arguments does to positions is said first: a callable stays where
it is, and a refused argument is a fault where the argument begins.
-/

namespace SlotTree

/-! ## Expressions stay where they are -/

namespace Expr

@[simp] theorem span_setField (e : Expr) (name : String) (f : Field) :
    (e.setField name f).span = e.span := by
  unfold setField
  split <;> rfl

@[simp] theorem span_setFields (e : Expr) (fields : Fields) :
    (e.setFields fields).span = e.span := by
  unfold setFields
  induction fields generalizing e with
  | nil => rfl
  | cons entry fields ih => rw [List.foldl_cons, ih, span_setField]

@[simp] theorem span_setBinder (e : Expr) (binder : Binder) :
    (e.setBinder binder).span = e.span := by
  cases e <;> rfl

@[simp] theorem span_markInvoked (e : Expr) : e.markInvoked.span = e.span := by
  unfold markInvoked
  split
  · rw [span_setBinder]
  · rfl

@[simp] theorem span_withBinding (e : Expr) (outcome : Edited Binding Unit) :
    (e.withBinding outcome).2.span = e.span := by
  rw [withBinding, span_setBinder, span_setFields]

theorem span_of_addArgument? {e argument : Expr} {outcome : Edited Expr Unit}
    (h : e.addArgument? argument = some outcome) : outcome.2.span = e.span := by
  obtain ⟨signature, -, rfl⟩ := Option.map_eq_some_iff.mp h
  rw [span_withBinding]

theorem span_of_addKeyword? {e argument : Expr} {keyword : String} {outcome : Edited Expr Unit}
    (h : e.addKeyword? keyword argument = some outcome) : outcome.2.span = e.span := by
  obtain ⟨signature, -, rfl⟩ := Option.map_eq_some_iff.mp h
  rw [span_withBinding]

/-- A call of an expression stands where it is put. -/
theorem span_of_callOf {func callee : Expr} {span : Span} (h : func.callOf span = .ok callee) :
    callee.span = span := by
  unfold callOf at h
  split at h
  · cases h
    rfl
  · cases h

end Expr

namespace Reading

open Parse

/-! ## Settings -/

/-- Two languages with the same tables, and a condition on positions. -/
structure Setting where
  grammar : Grammar
  builtins : Registry
  builtins' : Registry
  placed : Position → Prop

namespace Setting

variable (w : Setting)

/-- The one language. -/
def lang : Language := ⟨w.grammar, w.builtins⟩

/-- The other language. -/
def lang' : Language := ⟨w.grammar, w.builtins'⟩

/-- The two languages take the token for the same, and it begins in the right place, as does the
builtin that it stands for. -/
structure Allows (t : Token) : Prop where
  start : w.placed t.span.start
  same : t.kind = .identifier → w.builtins.find? t.text = w.builtins'.find? t.text
  builtin : t.kind = .identifier → ∀ constructor, w.builtins.find? t.text = some constructor →
    w.placed (constructor t.span).span.start

/-- All tokens that the cursor can come to are allowed. -/
structure Along (c : Cursor) : Prop where
  ahead : ∀ t ∈ c.ahead, w.Allows t
  closing : w.Allows c.closing

/-- An answer is as it should be, and a fault stands in the right place. -/
def Fine {α : Type} (answer : α → Prop) : Except Fault α → Prop
  | .ok a => answer a
  | .error fault => w.placed fault.position

/-- Two readers do the same along allowed tokens, and what comes of it is fine. -/
def Agree {α : Type} (answer : α → Prop) (p q : Parse α) : Prop :=
  ∀ c, w.Along c → p c = q c ∧ w.Along (p c).2 ∧ w.Fine answer (p c).1

variable {w}

namespace Along

variable {c : Cursor}

theorem current (h : w.Along c) : w.Allows c.current := by
  cases hahead : c.ahead with
  | nil =>
    rw [Cursor.current, hahead]
    exact h.closing
  | cons t ts =>
    rw [Cursor.current_of_ahead hahead]
    exact h.ahead t (by simp [hahead])

theorem position (h : w.Along c) : w.placed c.position := h.current.start

theorem advance (h : w.Along c) : w.Along c.advance := by
  refine ⟨fun t ht => h.ahead t ?_, by simpa using h.closing⟩
  rw [Cursor.ahead_advance] at ht
  exact List.mem_of_mem_drop ht

theorem skip (h : w.Along c) (n : Nat) : w.Along (c.skip n) := by
  induction n generalizing c with
  | zero => exact h
  | succ n ih => exact ih h.advance

end Along

/-! ## Agreement of readers -/

namespace Agree

variable {α β : Type} {answer : α → Prop} {result : β → Prop}

theorem pure {a : α} (h : answer a) : w.Agree answer (pure a) (pure a) :=
  fun _ hc => ⟨rfl, hc, h⟩

theorem fail {fault : Fault} (h : w.placed fault.position) :
    w.Agree answer (Parse.fail fault) (Parse.fail fault) :=
  fun _ hc => ⟨rfl, hc, h⟩

theorem unexpected : w.Agree answer unexpected unexpected :=
  fun _ hc => ⟨rfl, hc, hc.position⟩

theorem failHere (cause : Cause) : w.Agree answer (failHere cause) (failHere cause) :=
  fun _ hc => ⟨rfl, hc, hc.position⟩

theorem look {f : Cursor → α} (h : ∀ c, w.Along c → answer (f c)) :
    w.Agree answer (look f) (look f) :=
  fun c hc => ⟨rfl, hc, h c hc⟩

theorem look_cursor :
    w.Agree (fun c => w.placed c.position) (Parse.look id) (Parse.look id) :=
  look fun _ hc => hc.position

theorem lift {outcome : Except Fault α} (h : w.Fine answer outcome) :
    w.Agree answer (lift outcome) (lift outcome) := by
  cases outcome with
  | ok a => exact pure h
  | error fault => exact fail h

theorem advance : w.Agree w.Allows advance advance :=
  fun _ hc => ⟨rfl, hc.advance, hc.current⟩

theorem takeWhile (p : TokenKind → Bool) : w.Agree (fun _ => True) (takeWhile p) (takeWhile p) := by
  intro c hc
  rw [takeWhile_run]
  exact ⟨rfl, hc.skip _, trivial⟩

theorem expect (kind : TokenKind) :
    w.Agree (fun t => t.kind = kind ∧ w.Allows t) (expect kind) (expect kind) := by
  intro c hc
  refine ⟨rfl, ?_⟩
  unfold Parse.expect expectOr
  split
  · next hkind => exact ⟨hc.advance, by simpa [Cursor.kind] using hkind, hc.current⟩
  · exact ⟨hc, hc.position⟩

/-- **Readers that agree one after the other agree.** -/
theorem bind {p q : Parse α} {f g : α → Parse β} (h : w.Agree answer p q)
    (hnext : ∀ a, answer a → w.Agree result (f a) (g a)) :
    w.Agree result (p >>= f) (q >>= g) := by
  intro c hc
  obtain ⟨hsame, hstop, hfine⟩ := h c hc
  rw [bind_run, bind_run, ← hsame]
  cases hp : p c with
  | mk outcome c' =>
    rw [hp] at hstop hfine
    cases outcome with
    | ok a => exact hnext a hfine c' hstop
    | error fault => exact ⟨rfl, hstop, hfine⟩

/-- Looking at something of which nothing has to be known. -/
theorem look_bind {f : Cursor → α} {g g' : α → Parse β} (h : ∀ a, w.Agree result (g a) (g' a)) :
    w.Agree result (Parse.look f >>= g) (Parse.look f >>= g') := by
  have hlook : w.Agree (fun _ => True) (Parse.look f) (Parse.look f) := look fun _ _ => trivial
  exact bind hlook fun a _ => h a

/-- Passing a token of which nothing has to be known. -/
theorem expect_bind {kind : TokenKind} {g g' : Token → Parse β}
    (h : ∀ t, w.Allows t → w.Agree result (g t) (g' t)) :
    w.Agree result (Parse.expect kind >>= g) (Parse.expect kind >>= g') :=
  bind (expect kind) fun t ht => h t ht.2

theorem advance_bind {g g' : Token → Parse β} (h : ∀ t, w.Allows t → w.Agree result (g t) (g' t)) :
    w.Agree result (Parse.advance >>= g) (Parse.advance >>= g') :=
  bind advance h

end Agree

/-- Nothing has to be known of an answer. -/
def anything {α : Type} : α → Prop := fun _ => True

/-- An expression begins in the right place. -/
def begins (w : Setting) (e : Expr) : Prop := w.placed e.span.start

/-! ## Annotations -/

theorem agree_symbolType : w.Agree anything (symbolType w.lang) (symbolType w.lang') := by
  unfold symbolType
  refine .bind (.expect .identifier) fun t ⟨hkind, ht⟩ => ?_
  simp only [lang, lang', ← ht.same hkind]
  cases w.builtins.find? t.text with
  | none => exact .fail ht.start
  | some constructor =>
    simp only
    cases (constructor t.span).asType? with
    | none => exact .fail ht.start
    | some type => exact .pure trivial

theorem agree_noneType : w.Agree anything noneType noneType :=
  .expect_bind fun _ _ => .pure trivial

theorem agree_openType : w.Agree anything (openType w.lang) (openType w.lang') := by
  unfold openType
  refine .look_bind fun kind => ?_
  simp only [lang, lang']
  cases w.grammar.typeOpening? kind with
  | none => exact .unexpected
  | some opening =>
    cases opening with
    | symbol => exact agree_symbolType
    | none => exact agree_noneType

theorem agree_subscriptType {item item' : Parse Ty} (h : w.Agree anything item item') (left : Ty) :
    w.Agree anything (subscriptType item left) (subscriptType item' left) := by
  unfold subscriptType
  refine .expect_bind fun bracket hbracket => ?_
  split
  · exact .fail hbracket.start
  · refine .bind h fun type _ => ?_
    exact .expect_bind fun _ _ => .pure trivial

theorem agree_unionType : w.Agree anything unionType unionType :=
  .expect_bind fun _ hoperator => .fail hoperator.start

theorem agree_followType {item item' : Parse Ty} (h : w.Agree anything item item') (power : Power)
    (rounds : Nat) (left : Ty) :
    w.Agree anything (followType w.lang item power rounds left)
      (followType w.lang' item' power rounds left) := by
  induction rounds generalizing left with
  | zero => exact .unexpected
  | succ rounds ih =>
    unfold followType
    refine .look_bind fun kind => ?_
    simp only [lang, lang']
    cases w.grammar.typePower? kind with
    | none => exact .pure trivial
    | some next =>
      simp only
      split
      · exact .pure trivial
      · cases w.grammar.typeFollowing? kind with
        | none => exact .unexpected
        | some entry =>
          obtain ⟨_, following⟩ := entry
          cases following with
          | subscript => exact .bind (agree_subscriptType h left) fun left _ => ih left
          | union => exact agree_unionType

theorem agree_typeUpTo (levels : Nat) (power : Power) :
    w.Agree anything (typeUpTo w.lang levels power) (typeUpTo w.lang' levels power) := by
  induction levels generalizing power with
  | zero => exact .unexpected
  | succ levels ih =>
    unfold typeUpTo
    refine .bind agree_openType fun left _ => .look_bind fun rounds => ?_
    exact agree_followType (ih .lowest) power rounds left

theorem agree_typeExpr : w.Agree anything (typeExpr w.lang) (typeExpr w.lang') := by
  unfold typeExpr
  refine .look_bind fun start => ?_
  have htype : w.Agree anything (type w.lang .lowest) (type w.lang' .lowest) :=
    fun c hc => agree_typeUpTo c.remaining .lowest c hc
  exact .bind htype fun type _ => .look_bind fun stop => .pure trivial

/-! ## Constants, names and groups -/

theorem agree_number : w.Agree w.begins number number := by
  unfold number
  refine .advance_bind fun t ht => ?_
  cases Number.read t.text with
  | ok value => exact .pure ht.start
  | error cause => exact .fail ht.start

theorem agree_text : w.Agree w.begins text text := by
  unfold text
  refine .bind (.look fun _ hc => hc.position) fun start hstart => ?_
  refine .bind (.takeWhile _) fun tokens _ => ?_
  simp only
  split
  · exact .fail hstart
  split
  · exact .fail hstart
  split
  · exact .fail hstart
  · exact .pure hstart

theorem agree_constant : w.Agree w.begins constant constant := by
  have hliteral : ∀ value : Literal, w.Agree w.begins
      (do let token ← advance; Pure.pure (Expr.ofLiteral value token.span))
      (do let token ← advance; Pure.pure (Expr.ofLiteral value token.span)) :=
    fun value => .advance_bind fun t ht => .pure ht.start
  unfold constant
  refine .look_bind fun kind => ?_
  split
  · exact hliteral _
  · exact hliteral _
  · exact hliteral _
  · exact agree_number
  · exact agree_text
  · exact agree_text
  · exact agree_text
  · exact .failHere _
  · exact .unexpected

theorem agree_name : w.Agree w.begins (name w.lang) (name w.lang') := by
  unfold name
  refine .bind (.expect .identifier) fun t ⟨hkind, ht⟩ => ?_
  simp only [lang, lang', ← ht.same hkind]
  cases hfind : w.builtins.find? t.text with
  | none => exact .pure ht.start
  | some constructor => exact .pure (ht.builtin hkind constructor hfind)

theorem agree_group {inner inner' : Parse Expr} (h : w.Agree w.begins inner inner') :
    w.Agree w.begins (group inner) (group inner') := by
  unfold group
  refine .expect_bind fun opening hopening => .look_bind fun kind => ?_
  split
  · exact .fail hopening.start
  · refine .bind h fun e he => .look_bind fun kind => ?_
    split
    · exact .fail hopening.start
    · exact .fail hopening.start
    · exact .expect_bind fun _ _ => .pure he

/-! ## Calls -/

theorem agree_argument {inner inner' : Parse Expr} (h : w.Agree w.begins inner inner') :
    w.Agree (fun a => w.begins a.value) (argument inner) (argument inner') := by
  unfold argument
  refine .bind .look_cursor fun c hc => ?_
  split
  · exact .fail hc
  · exact .fail hc
  · split
    · refine .advance_bind fun keyword _ => .advance_bind fun _ _ => ?_
      exact .bind h fun value hvalue => .pure hvalue
    · refine .bind h fun value hvalue => .look_bind fun kind => ?_
      split
      · exact .fail hvalue
      · exact .pure hvalue

theorem agree_arguments {inner inner' : Parse Expr} (h : w.Agree w.begins inner inner')
    (rounds : Nat) :
    w.Agree (fun args => ∀ a ∈ args, w.begins a.value) (arguments inner rounds)
      (arguments inner' rounds) := by
  induction rounds with
  | zero => exact .unexpected
  | succ rounds ih =>
    unfold arguments
    refine .look_bind fun kind => ?_
    split
    · exact .pure (by simp)
    · refine .bind (agree_argument h) fun first hfirst => .look_bind fun kind => ?_
      split
      · refine .advance_bind fun _ _ => .bind ih fun rest hrest => .pure ?_
        simpa using ⟨hfirst, hrest⟩
      · exact .pure (by simpa using hfirst)

/-- What arguments are bound to begins where the called expression does. -/
theorem fine_calleeOf {left : Expr} (h : w.begins left) (stop : Position) :
    w.Fine w.begins (calleeOf left stop) := by
  unfold calleeOf
  split
  · exact h
  · cases hcall : left.callOf ⟨left.span.start, stop⟩ with
    | ok callee =>
      have hspan := Expr.span_of_callOf hcall
      simpa [Fine, begins, hspan] using h
    | error fault => exact h

/-- **A refused argument is a fault where it begins.** -/
theorem fine_bindArguments {closing : Position} (hclosing : w.placed closing) {callee : Expr}
    (hcallee : w.begins callee) {args : List Argument} (hargs : ∀ a ∈ args, w.begins a.value) :
    w.Fine w.begins (bindArguments closing callee args) := by
  induction args generalizing callee with
  | nil => exact hcallee
  | cons a rest ih =>
    have ha : w.begins a.value := hargs a List.mem_cons_self
    have hspan : ∀ outcome, a.offerTo callee = some outcome → outcome.2.span = callee.span := by
      intro outcome houtcome
      unfold Argument.offerTo at houtcome
      split at houtcome
      · exact Expr.span_of_addKeyword? houtcome
      · exact Expr.span_of_addArgument? houtcome
    rw [bindArguments_cons_eq]
    cases hoffer : a.offerTo callee with
    | none => exact hclosing
    | some outcome =>
      obtain ⟨result, callee'⟩ := outcome
      have hsame : callee'.span = callee.span := hspan _ hoffer
      cases result with
      | error fault => exact ha
      | ok _ =>
        refine ih ?_ fun b hb => hargs b (List.mem_cons_of_mem a hb)
        rwa [begins, hsame]

theorem agree_call {inner inner' : Parse Expr} (h : w.Agree w.begins inner inner') {left : Expr}
    (hleft : w.begins left) : w.Agree w.begins (call inner left) (call inner' left) := by
  unfold call
  refine .expect_bind fun _ _ => .look_bind fun rounds => ?_
  refine .bind (agree_arguments h rounds) fun args hargs => .expect_bind fun closing hclosing => ?_
  refine .bind (.lift (fine_calleeOf hleft _)) fun callee hcallee => ?_
  refine .bind (.lift (fine_bindArguments hclosing.start hcallee hargs)) fun bound hbound => ?_
  exact .pure (by simpa [begins] using hbound)

/-! ## Expressions -/

theorem agree_unsupportedOpening : w.Agree w.begins unsupportedOpening unsupportedOpening := by
  intro c hc
  refine ⟨rfl, ?_⟩
  unfold unsupportedOpening
  split
  · exact ⟨hc, hc.position⟩
  · exact ⟨hc, hc.position⟩

theorem agree_unsupportedFollowing {left : Expr} (h : w.begins left) :
    w.Agree w.begins (unsupportedFollowing left) (unsupportedFollowing left) := by
  intro c hc
  refine ⟨rfl, ?_⟩
  unfold unsupportedFollowing
  split
  · exact ⟨hc, h⟩
  · exact ⟨hc, hc.position⟩

theorem agree_openExpr {inner inner' : Parse Expr} (h : w.Agree w.begins inner inner') :
    w.Agree w.begins (openExpr w.lang inner) (openExpr w.lang' inner') := by
  unfold openExpr
  refine .look_bind fun kind => ?_
  have hgrammar : w.lang'.grammar = w.lang.grammar := rfl
  rw [hgrammar]
  cases w.lang.grammar.opening? kind with
  | none => exact .unexpected
  | some opening =>
    cases opening with
    | constant => exact agree_constant
    | name => exact agree_name
    | group => exact agree_group h
    | unsupported => exact agree_unsupportedOpening

theorem agree_followExpr {inner inner' : Parse Expr} (h : w.Agree w.begins inner inner')
    (power : Power) (rounds : Nat) {left : Expr} (hleft : w.begins left) :
    w.Agree w.begins (followExpr w.lang inner power rounds left)
      (followExpr w.lang' inner' power rounds left) := by
  induction rounds generalizing left with
  | zero => exact .unexpected
  | succ rounds ih =>
    unfold followExpr
    refine .look_bind fun kind => ?_
    simp only [lang, lang']
    cases w.grammar.power? kind with
    | none => exact .pure hleft
    | some next =>
      simp only
      split
      · exact .pure hleft
      · cases w.grammar.following? kind with
        | none => exact .unexpected
        | some entry =>
          obtain ⟨_, following⟩ := entry
          cases following with
          | call => exact .bind (agree_call h hleft) fun _ hcall => ih hcall
          | unsupported => exact agree_unsupportedFollowing hleft

theorem agree_exprUpTo (levels : Nat) (power : Power) :
    w.Agree w.begins (exprUpTo w.lang levels power) (exprUpTo w.lang' levels power) := by
  induction levels generalizing power with
  | zero => exact .unexpected
  | succ levels ih =>
    unfold exprUpTo
    refine .bind (agree_openExpr (ih .lowest)) fun left hleft => .look_bind fun rounds => ?_
    exact agree_followExpr (ih .lowest) power rounds hleft

theorem agree_valueExpr : w.Agree w.begins (valueExpr w.lang) (valueExpr w.lang') := by
  unfold valueExpr
  have hexpr : w.Agree w.begins (expr w.lang .lowest) (expr w.lang' .lowest) :=
    fun c hc => agree_exprUpTo c.remaining .lowest c hc
  refine .bind hexpr fun value hvalue => .look_bind fun kind => ?_
  split
  · exact .fail hvalue
  · exact .pure hvalue

/-! ## Statements -/

theorem agree_expressionStmt :
    w.Agree anything (expressionStmt w.lang) (expressionStmt w.lang') := by
  unfold expressionStmt
  refine .bind agree_valueExpr fun value hvalue => ?_
  cases Stmt.ofExpr value value.span with
  | ok s => exact .pure trivial
  | error fault => exact .fail hvalue

/-- A fresh statement takes every type. -/
theorem agree_withType {s s' : Stmt} {declared : Ty × Span}
    (h : ∀ c, withType s declared c = (.ok s', c)) :
    w.Agree anything (withType s declared) (withType s declared) := by
  intro c hc
  rw [h c]
  exact ⟨rfl, hc, trivial⟩

theorem agree_withValue (s : Stmt) {value : Expr} (h : w.begins value) :
    w.Agree anything (withValue s value) (withValue s value) := by
  unfold withValue
  split
  · exact .pure trivial
  · exact .fail h
  · exact .pure trivial

theorem agree_annotatedStmt : w.Agree anything (annotatedStmt w.lang) (annotatedStmt w.lang') := by
  unfold annotatedStmt
  refine .look_bind fun c => ?_
  split
  · exact .failHere _
  · refine .expect_bind fun target _ => .expect_bind fun _ _ => ?_
    refine .bind agree_typeExpr fun declared _ => .look_bind fun kind => ?_
    split
    · exact agree_withType (withType_declare_run _ _ _)
    · refine .expect_bind fun _ _ => .bind agree_valueExpr fun value hvalue => ?_
      exact .bind (agree_withType (withType_define_run _ _ _)) fun s _ => agree_withValue s hvalue

theorem agree_unsupportedStmt : w.Agree anything unsupportedStmt unsupportedStmt := by
  intro c hc
  refine ⟨rfl, ?_⟩
  unfold unsupportedStmt
  split
  · exact ⟨hc, hc.position⟩
  · exact ⟨hc, hc.position⟩

theorem agree_stmtBody : w.Agree anything (stmtBody w.lang) (stmtBody w.lang') := by
  unfold stmtBody
  refine .bind .look_cursor fun c hc => ?_
  have hgrammar : w.lang'.grammar = w.lang.grammar := rfl
  rw [hgrammar]
  split
  · exact agree_unsupportedStmt
  · cases classify c with
    | annotated => exact agree_annotatedStmt
    | assignment node => exact .fail hc
    | expression => exact agree_expressionStmt

theorem agree_lineEnd : w.Agree anything lineEnd lineEnd := by
  unfold lineEnd
  refine .look_bind fun kind => ?_
  split
  · refine .advance_bind fun _ _ => .look_bind fun next => ?_
    split
    · exact .advance_bind fun _ _ => .pure trivial
    · exact .pure trivial
  · exact .advance_bind fun _ _ => .pure trivial
  · exact .pure trivial
  · exact .unexpected

theorem agree_stmts (rounds : Nat) :
    w.Agree anything (stmts w.lang rounds) (stmts w.lang' rounds) := by
  induction rounds with
  | zero => exact .unexpected
  | succ rounds ih =>
    unfold stmts
    refine .look_bind fun more => ?_
    split
    · have hstmt : w.Agree anything (stmt w.lang) (stmt w.lang') :=
        .bind agree_stmtBody fun _ _ => .bind agree_lineEnd fun _ _ => .pure trivial
      exact .bind hstmt fun _ _ => .bind ih fun _ _ => .pure trivial
    · exact .pure trivial

theorem agree_script (file : String) :
    w.Agree anything (script w.lang file) (script w.lang' file) := by
  unfold script
  refine .look_bind fun rounds => .bind (agree_stmts rounds) fun body _ => ?_
  exact .look_bind fun stop => .pure trivial

/-! ## Lists of tokens -/

/-- The cursor in front of a list comes to the tokens of the list and to one that closes it. -/
theorem along_ofTokens {tokens : List Token} {file : String} (h : ∀ t ∈ tokens, w.Allows t)
    (hclosing : w.placed (Cursor.ofTokens tokens file).closing.span.start) :
    w.Along (.ofTokens tokens file) := by
  refine ⟨fun t ht => h t ?_, hclosing, ?_, ?_⟩
  · unfold Cursor.ofTokens at ht
    split at ht
    · cases ht
    · split at ht
      · exact List.dropLast_subset tokens ht
      · exact ht
  · exact fun hkind => nomatch hkind
  · exact fun hkind => nomatch hkind

/-- **Two languages read a list of tokens that they take for the same in the same way**, and a
fault in it stands in the right place. -/
theorem readTokens_agree {tokens : List Token} {file : String} (h : ∀ t ∈ tokens, w.Allows t)
    (hclosing : w.placed (Cursor.ofTokens tokens file).closing.span.start) :
    readTokens w.lang tokens file = readTokens w.lang' tokens file ∧
      ∀ fault, readTokens w.lang tokens file = .error fault → w.placed fault.position := by
  obtain ⟨hsame, -, hfine⟩ := agree_script file _ (along_ofTokens h hclosing)
  refine ⟨congrArg Prod.fst hsame, fun fault hfault => ?_⟩
  unfold readTokens at hfault
  rw [hfault] at hfine
  exact hfine

end Setting
end Reading
end SlotTree

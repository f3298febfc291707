import SlotTree.Proofs.Reading.Phrase
import SlotTree.Proofs.Token.Seam
import SlotTree.Proofs.Tree.Forms

/-!
# Scripts at another place

What tokens denote depends on where they stand in one way only: the tree takes its spans from
them.  So tokens that are moved denote the same tree, moved in the same way, whatever the move is,
and this module says so for each rule of the grammar.

Moving a tree (`Expr.relocate`, `Stmt.relocate`) changes no more than its spans, which is to say
that without spans the moved tree is the tree (`Stmt.eraseSpans_relocate`).  The one rule that does
something to a tree is that of calls.  A callee that takes arguments is a form of
`SlotTree.Proofs.Tree.Bind`, since an expression that can be called and has not been is `print`
alone (`Derives.calledOrPrint`), and a form that is moved takes the moved arguments.
-/

namespace SlotTree

open Reading (Argument bindArguments calleeOf)

/-! ## Trees -/

mutual

/-- The expression with every position moved. -/
def Expr.relocate (g : Position → Position) : Expr → Expr
  | .literal kind value span => .literal kind (value.relocate g) (span.relocate g)
  | .load id span => .load (id.relocate g) (span.relocate g)
  | .keyword arg value span => .keyword (arg.relocate g) (value.relocate g) (span.relocate g)
  | .type t span => .type t (span.relocate g)
  | .call func args keywords binder span =>
    .call (func.relocate g) (args.relocate g) (keywords.relocate g) binder (span.relocate g)
  | .print objects sep ending file flush binder span =>
    .print (objects.relocate g) (sep.relocate g) (ending.relocate g) (file.relocate g)
      (flush.relocate g) binder (span.relocate g)

/-- The rest field with every position in it moved. -/
def Variadic.relocate (g : Position → Position) : Variadic → Variadic
  | ⟨itemType, slots⟩ => ⟨itemType, relocateSlots g slots⟩

/-- The slot with every position in it moved. -/
def Slot.relocate (g : Position → Position) : Slot → Slot
  | ⟨type, content, owned⟩ => ⟨type, relocateContent g content, relocateOwned g owned⟩

/-- What a slot holds, with every position in it moved. -/
def relocateContent (g : Position → Position) : Content Expr → Content Expr
  | .empty => .empty
  | .literal v => .literal v
  | .expr e => .expr (e.relocate g)

/-- A constrained slot, with every position in it moved. -/
def relocateOwned (g : Position → Position) : Option Slot → Option Slot
  | none => none
  | some s => some (s.relocate g)

/-- The slots of a rest field, with every position in them moved. -/
def relocateSlots (g : Position → Position) : List Slot → List Slot
  | [] => []
  | s :: ss => s.relocate g :: relocateSlots g ss

end

mutual

/-- The statement with every position moved. -/
def Stmt.relocate (g : Position → Position) : Stmt → Stmt
  | .block ⟨body, span⟩ => .block ⟨relocateStmts g body, span.relocate g⟩
  | .expression value span => .expression (value.relocate g) (span.relocate g)
  | .declaration id type span => .declaration (id.relocate g) (type.relocate g) (span.relocate g)
  | .definition id type span => .definition (id.relocate g) (type.relocate g) (span.relocate g)

/-- The statements of a block, with every position in them moved. -/
def relocateStmts (g : Position → Position) : List Stmt → List Stmt
  | [] => []
  | s :: ss => s.relocate g :: relocateStmts g ss

end

variable (g : Position → Position)

theorem relocateSlots_eq_map (ss : List Slot) : relocateSlots g ss = ss.map (Slot.relocate g) := by
  induction ss with
  | nil => rfl
  | cons s ss ih => rw [relocateSlots, ih, List.map_cons]

namespace Slot

@[simp] theorem relocate_holding (t : Ty) (e : Expr) :
    (holding t e).relocate g = holding t (e.relocate g) := rfl

@[simp] theorem relocate_ofLiteral (v : Literal) : (ofLiteral v).relocate g = ofLiteral v := rfl

@[simp] theorem relocate_maybe (t : Ty) (e : Option Expr) :
    (maybe t e).relocate g = maybe t (e.map (Expr.relocate g)) := by
  cases e <;> rfl

end Slot

namespace Expr

@[simp] theorem valueType_relocate (e : Expr) : (e.relocate g).valueType = e.valueType := by
  cases e <;> rfl

@[simp] theorem span_relocate (e : Expr) : (e.relocate g).span = e.span.relocate g := by
  cases e <;> rfl

@[simp] theorem isInvoked?_relocate (e : Expr) : (e.relocate g).isInvoked? = e.isInvoked? := by
  cases e <;> rfl

theorem relocate_markInvoked (e : Expr) :
    e.markInvoked.relocate g = (e.relocate g).markInvoked := by
  cases e <;> rfl

end Expr

/-! ## Nothing but spans is changed -/

mutual

theorem Expr.eraseSpans_relocate : (e : Expr) → (e.relocate g).eraseSpans = e.eraseSpans
  | .literal _ value _ => by
    simp only [Expr.relocate, Expr.eraseSpans, value.eraseSpans_relocate]
  | .load id _ => by simp only [Expr.relocate, Expr.eraseSpans, id.eraseSpans_relocate]
  | .keyword arg value _ => by
    simp only [Expr.relocate, Expr.eraseSpans, arg.eraseSpans_relocate, value.eraseSpans_relocate]
  | .type _ _ => rfl
  | .call func ⟨_, args⟩ ⟨_, keywords⟩ _ _ => by
    simp only [Expr.relocate, Variadic.relocate, Expr.eraseSpans, func.eraseSpans_relocate,
      eraseSlots_relocateSlots args, eraseSlots_relocateSlots keywords]
  | .print ⟨_, objects⟩ sep ending file flush _ _ => by
    simp only [Expr.relocate, Variadic.relocate, Expr.eraseSpans, eraseSlots_relocateSlots objects,
      sep.eraseSpans_relocate, ending.eraseSpans_relocate, file.eraseSpans_relocate,
      flush.eraseSpans_relocate]

theorem Slot.eraseSpans_relocate : (s : Slot) → (s.relocate g).eraseSpans = s.eraseSpans
  | ⟨_, content, owned⟩ => by
    simp only [Slot.relocate, Slot.eraseSpans, eraseContent_relocateContent content,
      eraseOwned_relocateOwned owned]

theorem eraseContent_relocateContent : (content : Content Expr) →
    eraseContent (relocateContent g content) = eraseContent content
  | .empty => rfl
  | .literal _ => rfl
  | .expr e => congrArg Content.expr e.eraseSpans_relocate

theorem eraseOwned_relocateOwned : (owned : Option Slot) →
    eraseOwned (relocateOwned g owned) = eraseOwned owned
  | none => rfl
  | some s => congrArg some s.eraseSpans_relocate

theorem eraseSlots_relocateSlots : (ss : List Slot) →
    eraseSlots (relocateSlots g ss) = eraseSlots ss
  | [] => rfl
  | s :: ss => by
    simp only [relocateSlots, eraseSlots, s.eraseSpans_relocate, eraseSlots_relocateSlots ss]

end

mutual

/-- **Moving a statement changes no more than its spans.** -/
theorem Stmt.eraseSpans_relocate : (s : Stmt) → (s.relocate g).eraseSpans = s.eraseSpans
  | .block ⟨body, _⟩ => by
    simp only [Stmt.relocate, Stmt.eraseSpans, eraseStmts_relocateStmts body]
  | .expression value _ => by
    simp only [Stmt.relocate, Stmt.eraseSpans, value.eraseSpans_relocate]
  | .declaration id type _ => by
    simp only [Stmt.relocate, Stmt.eraseSpans, id.eraseSpans_relocate, type.eraseSpans_relocate]
  | .definition id type _ => by
    simp only [Stmt.relocate, Stmt.eraseSpans, id.eraseSpans_relocate, type.eraseSpans_relocate]

theorem eraseStmts_relocateStmts : (ss : List Stmt) →
    eraseStmts (relocateStmts g ss) = eraseStmts ss
  | [] => rfl
  | s :: ss => by
    simp only [relocateStmts, eraseStmts, s.eraseSpans_relocate, eraseStmts_relocateStmts ss]

end

/-! ## Callables and their arguments -/

/-- The argument with every position in its value moved. -/
def Reading.Argument.relocate (a : Argument) : Argument := ⟨a.keyword, a.value.relocate g⟩

@[simp] theorem Reading.Argument.value_relocate (a : Argument) :
    (a.relocate g).value = a.value.relocate g := rfl

/-- The options with every position in them moved. -/
def PrintOptions.relocate (options : PrintOptions) : PrintOptions :=
  fun k => (options k).map (Expr.relocate g)

@[simp] theorem PrintOptions.any_relocate (options : PrintOptions) :
    (options.relocate g).any = options.any := by
  simp [PrintOptions.any, PrintOptions.relocate]

theorem PrintOptions.relocate_set (options : PrintOptions) (k : PrintKey) (e : Expr) :
    (options.set k e).relocate g = (options.relocate g).set k (e.relocate g) := by
  funext k'
  simp only [PrintOptions.relocate, PrintOptions.set_apply]
  split <;> rfl

namespace Expr

theorem relocate_printWith (objects : List Expr) (options : PrintOptions) (invoked : Bool)
    (span : Span) :
    (printWith objects options invoked span).relocate g =
      printWith (objects.map (relocate g)) (options.relocate g) invoked (span.relocate g) := by
  simp only [printWith, relocate, Variadic.relocate, relocateSlots_eq_map, List.map_map,
    Slot.relocate_maybe, PrintOptions.any_relocate]
  rfl

theorem relocate_keywordNode (passed : String × Expr) :
    (keywordNode passed).relocate g = keywordNode (passed.1, passed.2.relocate g) := by
  simp only [keywordNode, relocate, span_relocate, Slot.relocate_ofLiteral, Slot.relocate_holding]

/-- Keywords with their values moved. -/
def relocateKeywords (keywords : List (String × Expr)) : List (String × Expr) :=
  keywords.map fun passed => (passed.1, passed.2.relocate g)

theorem relocate_callWith (func : Expr) (args : List Expr) (keywords : List (String × Expr))
    (invoked : Bool) (span : Span) :
    (callWith func args keywords invoked span).relocate g =
      callWith (func.relocate g) (args.map (relocate g)) (relocateKeywords g keywords) invoked
        (span.relocate g) := by
  have hkeywords : (keywords.map fun passed =>
        Slot.holding (.plain .keyword) (keywordNode passed)).map (Slot.relocate g) =
      (relocateKeywords g keywords).map fun passed =>
        Slot.holding (.plain .keyword) (keywordNode passed) := by
    simp only [relocateKeywords, List.map_map]
    refine List.map_congr_left fun passed _ => ?_
    rw [Function.comp_apply, Slot.relocate_holding, relocate_keywordNode]
    rfl
  have hempty : (relocateKeywords g keywords).isEmpty = keywords.isEmpty := List.isEmpty_map
  simp only [callWith, relocate, Variadic.relocate, relocateSlots_eq_map, hkeywords, hempty,
    List.map_map]
  rfl

/-- A callable with arguments, as binding leaves it. -/
inductive Form : Expr → Prop where
  | print (objects : List Expr) (options : PrintOptions) (invoked : Bool) (span : Span) :
      Form (printWith objects options invoked span)
  | call (func : Expr) (args : List Expr) (keywords : List (String × Expr)) (invoked : Bool)
      (span : Span) : Form (callWith func args keywords invoked span)

/-- **One argument.**  What takes an argument is a form afterwards, and moved it takes the moved
argument. -/
theorem Form.offerTo_relocate {callee next : Expr} {a : Argument} {u : Unit} (hform : callee.Form)
    (h : a.offerTo callee = some (.ok u, next)) :
    next.Form ∧ (a.relocate g).offerTo (callee.relocate g) = some (.ok u, next.relocate g) := by
  obtain ⟨keyword, value⟩ := a
  cases hform with
  | print objects options invoked span =>
    cases keyword with
    | none =>
      obtain ⟨hany, hfits, rfl⟩ := (addArgument?_printWith _ _ _ _ _ _ _).mp h
      refine ⟨.print _ _ _ _, ?_⟩
      rw [relocate_printWith, relocate_printWith]
      exact (addArgument?_printWith _ _ _ _ _ _ _).mpr ⟨by simpa, by simpa, by simp⟩
    | some keyword =>
      obtain ⟨k, rfl⟩ := exists_name_of_addKeyword?_printWith h
      obtain ⟨hfree, hfits, rfl⟩ := (addKeyword?_printWith _ _ _ _ _ _ _ _).mp h
      refine ⟨.print _ _ _ _, ?_⟩
      rw [relocate_printWith, relocate_printWith, PrintOptions.relocate_set]
      have hfree' : options.relocate g k = none := by rw [PrintOptions.relocate, hfree]; rfl
      exact (addKeyword?_printWith _ _ _ _ _ _ _ _).mpr ⟨hfree', by simpa, rfl⟩
  | call func args keywords invoked span =>
    cases keyword with
    | none =>
      obtain ⟨rfl, hfits, rfl⟩ := (addArgument?_callWith _ _ _ _ _ _ _ _).mp h
      refine ⟨.call _ _ _ _ _, ?_⟩
      rw [relocate_callWith, relocate_callWith]
      exact (addArgument?_callWith _ _ _ _ _ _ _ _).mpr ⟨rfl, by simpa, by simp⟩
    | some keyword =>
      obtain ⟨hfresh, hfits, rfl⟩ := (addKeyword?_callWith _ _ _ _ _ _ _ _ _).mp h
      refine ⟨.call _ _ _ _ _, ?_⟩
      rw [relocate_callWith, relocate_callWith]
      have hfresh' : keyword ∉ (relocateKeywords g keywords).map Prod.fst := by
        rwa [relocateKeywords, List.map_map]
      refine (addKeyword?_callWith _ _ _ _ _ _ _ _ _).mpr ⟨hfresh', by simpa, ?_⟩
      simp [relocateKeywords]

/-- **All arguments.**  What the moved arguments are bound to comes out moved. -/
theorem Form.bindArguments_relocate {callee bound : Expr} {args : List Argument}
    {closing : Position} (closing' : Position) (hform : callee.Form)
    (h : bindArguments closing callee args = .ok bound) :
    bindArguments closing' (callee.relocate g) (args.map (Argument.relocate g)) =
      .ok (bound.relocate g) := by
  induction args generalizing callee with
  | nil =>
    obtain rfl := Except.ok.inj h
    rfl
  | cons a args ih =>
    obtain ⟨u, next, hoffer, hrest⟩ := bindArguments_cons_eq_ok_iff.mp h
    obtain ⟨hnext, hoffer'⟩ := hform.offerTo_relocate g hoffer
    rw [List.map_cons, bindArguments_cons hoffer', ih hnext hrest]

/-- A call of a moved expression is the moved call. -/
theorem calleeOf_relocate {left callee : Expr} {stop : Position}
    (h : calleeOf left stop = .ok callee) :
    calleeOf (left.relocate g) (g stop) = .ok (callee.relocate g) := by
  unfold calleeOf at h ⊢
  rw [isInvoked?_relocate]
  split at h
  · next hinvoked =>
    obtain rfl := Except.ok.inj h
    rw [if_pos hinvoked]
  · next hinvoked =>
    rw [if_neg hinvoked]
    split at h
    · next call hcall =>
      obtain rfl := Except.ok.inj h
      obtain ⟨hfits, rfl⟩ := callOf_eq_ok_iff.mp hcall
      have hcall' : (left.relocate g).callOf ⟨(left.relocate g).span.start, g stop⟩ =
          .ok ((callWith left [] [] false ⟨left.span.start, stop⟩).relocate g) := by
        refine callOf_eq_ok_iff.mpr ⟨by simpa, ?_⟩
        rw [relocate_callWith, span_relocate]
        rfl
      rw [hcall']
      rfl
    · cases h

end Expr

namespace Reading

/-! ## The rules of the grammar -/

theorem stretch_relocate (first : Token) (more : List Token) :
    stretch (first.relocate g) (more.map (Token.relocate g)) = (stretch first more).relocate g := by
  simp only [stretch, Span.relocate, ← List.map_cons, List.getLast_map, Token.span_relocate]

/-- A builtin that every script knows is moved along with its name. -/
theorem relocate_of_find?_default {name : String} {constructor : Constructor}
    (h : Registry.default.find? name = some constructor) (span : Span) :
    constructor (span.relocate g) = (constructor span).relocate g := by
  rcases Registry.find?_default h with ⟨c, -, rfl⟩ | rfl | ⟨-, rfl⟩
  · rfl
  · rfl
  · rfl

theorem mention_relocate (t : Token) : mention (t.relocate g) = (mention t).relocate g := by
  unfold mention
  rw [Token.text_relocate]
  split
  · next constructor hfind => exact relocate_of_find?_default g hfind t.span
  · rfl

theorem DerivesType.relocate {ts : List Token} {type : Ty} (h : DerivesType ts type) :
    DerivesType (ts.map (Token.relocate g)) type := by
  induction h with
  | @symbol t constructor type kind builtin isType =>
    refine .symbol kind builtin ?_
    have hsame : ((constructor t.span).relocate g).asType? = (constructor t.span).asType? := by
      cases constructor t.span <;> rfl
    rw [Token.span_relocate, relocate_of_find?_default g builtin, hsame, isType]
  | noneType kind => exact .noneType kind
  | subscript _ isList openKind _ closeKind ih₁ ih₂ =>
    simp only [List.map_append, List.map_cons, List.map_nil]
    exact .subscript ih₁ isList openKind ih₂ closeKind

theorem Constant.relocate {t : Token} {v : Literal} (h : Constant t v) :
    Constant (t.relocate g) v := by
  cases h with
  | true_ kind => exact .true_ kind
  | false_ kind => exact .false_ kind
  | none_ kind => exact .none_ kind
  | number kind value => exact .number kind value

/-- What a phrase denotes, with every position in it moved. -/
def Phrase.relocate : Phrase → Phrase
  | .expr e => .expr (e.relocate g)
  | .argument a => .argument (a.relocate g)
  | .arguments args => .arguments (args.map (Argument.relocate g))

/-- An expression that can be called and has not been is `print` alone. -/
def Phrase.CalledOrPrint : Phrase → Prop
  | .expr e => e.isInvoked? = some false → ∃ span, e = .emptyPrint span
  | _ => True

theorem Derives.calledOrPrint {ts : List Token} {p : Phrase} (h : Derives ts p) :
    p.CalledOrPrint := by
  induction h with
  | constant _ => exact fun hcalled => by cases hcalled
  | text _ => exact fun hcalled => by cases hcalled
  | name _ =>
    intro hcalled
    unfold mention at hcalled ⊢
    split at hcalled
    · next constructor hfind =>
      rcases Registry.find?_default hfind with ⟨c, -, rfl⟩ | rfl | ⟨-, rfl⟩
      · cases hcalled
      · cases hcalled
      · exact ⟨_, rfl⟩
    · cases hcalled
  | group _ _ _ ih => exact ih
  | @call _ _ _ _ _ _ bound _ _ _ _ _ _ _ _ _ =>
    intro hcalled
    cases bound <;> cases hcalled
  | _ => trivial

/-- What the arguments of a call are bound to is a form. -/
theorem form_of_calleeOf {left callee : Expr} {stop : Position}
    (hleft : left.isInvoked? = some false → ∃ span, left = .emptyPrint span)
    (h : calleeOf left stop = .ok callee) : callee.Form := by
  unfold calleeOf at h
  split at h
  · next hinvoked =>
    obtain rfl := Except.ok.inj h
    obtain ⟨span, rfl⟩ := hleft (by simpa using hinvoked)
    exact .print [] .none false span
  · split at h
    · next call hcall =>
      obtain rfl := Except.ok.inj h
      obtain ⟨-, rfl⟩ := Expr.callOf_eq_ok_iff.mp hcall
      exact .call left [] [] false _
    · cases h

/-- **Moved tokens denote what the tokens denote, moved.** -/
theorem Derives.relocate {ts : List Token} {p : Phrase} (h : Derives ts p) :
    Derives (ts.map (Token.relocate g)) (p.relocate g) := by
  induction h with
  | constant value => exact .constant (value.relocate g)
  | @text t ts kinds =>
    have hkinds : ∀ u ∈ (t :: ts).map (Token.relocate g), u.kind = .string := by
      intro u hu
      obtain ⟨u, hmem, rfl⟩ := List.mem_map.mp hu
      exact kinds u hmem
    have htext := Derives.text hkinds
    rwa [stretch_relocate, ← List.map_cons, List.map_map] at htext
  | @name t kind =>
    rw [Phrase.relocate, ← mention_relocate]
    exact .name kind
  | group openKind _ closeKind ih =>
    simp only [List.map_append, List.map_cons, List.map_nil]
    exact .group openKind ih closeKind
  | call whole openKind _ closeKind called binds ih₁ ih₂ =>
    have hform := form_of_calleeOf whole.calledOrPrint called
    rw [Phrase.relocate, Expr.relocate_markInvoked]
    simp only [List.map_append, List.map_cons, List.map_nil]
    exact .call ih₁ openKind ih₂ closeKind (Expr.calleeOf_relocate g called)
      (hform.bindArguments_relocate g _ binds)
  | positional _ ih => exact .positional ih
  | keyword kind equalsKind _ ih => exact .keyword kind equalsKind ih
  | noArguments => exact .noArguments
  | lastArgument _ ih => exact .lastArgument ih
  | moreArguments _ commaKind _ ih₁ ih₂ =>
    simp only [List.map_append, List.map_cons]
    exact .moreArguments ih₁ commaKind ih₂

theorem DerivesStmt.relocate {ts : List Token} {s : Stmt} (h : DerivesStmt ts s) :
    DerivesStmt (ts.map (Token.relocate g)) (s.relocate g) := by
  cases h with
  | expression value fits =>
    rw [Stmt.relocate, ← Expr.span_relocate]
    exact .expression (value.relocate g) (by simpa using fits)
  | @declaration target colon first more type kind colonKind declared =>
    have htarget : (target.relocate g).kind = .identifier := kind
    have hcolon : (colon.relocate g).kind = .colon := colonKind
    have hstmt := DerivesStmt.declaration htarget hcolon (declared.relocate g)
    rw [stretch_relocate] at hstmt
    exact hstmt
  | @definition target colon first equals more ts type e kind colonKind declared equalsKind value
      fits =>
    have htarget : (target.relocate g).kind = .identifier := kind
    have hcolon : (colon.relocate g).kind = .colon := colonKind
    have hequals : (equals.relocate g).kind = .assignment := equalsKind
    have hstmt := DerivesStmt.definition htarget hcolon (declared.relocate g) hequals
      (value.relocate g) (by simpa using fits)
    rw [stretch_relocate, Expr.span_relocate] at hstmt
    simp only [List.map_append, List.map_cons]
    exact hstmt

theorem LineEnd.relocate {es : List Token} (h : LineEnd es) :
    LineEnd (es.map (Token.relocate g)) := by
  cases h with
  | newline kind => exact .newline kind
  | semicolon kind => exact .semicolon kind
  | semicolonNewline kind kind' => exact .semicolonNewline kind kind'

/-- **A script at another place has the same statements**, at another place. -/
theorem DerivesScript.relocate {ts : List Token} {body : List Stmt} (h : DerivesScript ts body) :
    DerivesScript (ts.map (Token.relocate g)) (body.map (Stmt.relocate g)) := by
  induction h with
  | nil => exact .nil
  | last stmt => exact .last (stmt.relocate g)
  | cons stmt ends _ ih =>
    simpa using DerivesScript.cons (stmt.relocate g) (ends.relocate g) ih

end Reading
end SlotTree

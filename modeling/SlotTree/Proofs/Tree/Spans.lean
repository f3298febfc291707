import SlotTree.Proofs.Tree.Fill
import SlotTree.Source.Render
import SlotTree.Tree.Dump

/-!
# Trees without their places

Every node carries the stretch of source that it was read from.  Two trees are the same up
to that if they agree once all spans are replaced by the detached one, and this module
defines the replacement (`eraseSpans`) and shows what does not depend on spans: the type of
a value, the document that a tree is dumped as, and the source text, unless there is none.
Where there is none the fault points into the source, so only the texts can be compared
(`Except.toOption`).
-/

namespace SlotTree

mutual

/-- The expression with every span replaced by the detached one. -/
def Expr.eraseSpans : Expr → Expr
  | .literal kind value _ => .literal kind value.eraseSpans .detached
  | .load id _ => .load id.eraseSpans .detached
  | .keyword arg value _ => .keyword arg.eraseSpans value.eraseSpans .detached
  | .type t _ => .type t .detached
  | .call func ⟨argType, args⟩ ⟨keywordType, keywords⟩ binder _ =>
    .call func.eraseSpans ⟨argType, eraseSlots args⟩ ⟨keywordType, eraseSlots keywords⟩ binder
      .detached
  | .print ⟨itemType, objects⟩ sep ending file flush binder _ =>
    .print ⟨itemType, eraseSlots objects⟩ sep.eraseSpans ending.eraseSpans file.eraseSpans
      flush.eraseSpans binder .detached

/-- The slot with every span in it replaced. -/
def Slot.eraseSpans : Slot → Slot
  | ⟨type, content, owned⟩ => ⟨type, eraseContent content, eraseOwned owned⟩

/-- What a slot holds, with every span in it replaced. -/
def eraseContent : Content Expr → Content Expr
  | .empty => .empty
  | .literal v => .literal v
  | .expr e => .expr e.eraseSpans

/-- A constrained slot, with every span in it replaced. -/
def eraseOwned : Option Slot → Option Slot
  | none => none
  | some s => some s.eraseSpans

/-- The slots of a rest field, with every span in them replaced. -/
def eraseSlots : List Slot → List Slot
  | [] => []
  | s :: ss => s.eraseSpans :: eraseSlots ss

end

mutual

/-- The statement with every span replaced by the detached one. -/
def Stmt.eraseSpans : Stmt → Stmt
  | .block ⟨body, _⟩ => .block ⟨eraseStmts body, .detached⟩
  | .expression value _ => .expression value.eraseSpans .detached
  | .declaration id type _ => .declaration id.eraseSpans type.eraseSpans .detached
  | .definition id type _ => .definition id.eraseSpans type.eraseSpans .detached

/-- The statements of a block, with every span in them replaced. -/
def eraseStmts : List Stmt → List Stmt
  | [] => []
  | s :: ss => s.eraseSpans :: eraseStmts ss

end

/-- The block with every span replaced by the detached one. -/
def Block.eraseSpans (b : Block) : Block := ⟨eraseStmts b.body, .detached⟩

/-! ## Slots -/

theorem eraseSlots_eq_map (ss : List Slot) : eraseSlots ss = ss.map Slot.eraseSpans := by
  induction ss with
  | nil => rfl
  | cons s ss ih => rw [eraseSlots, ih, List.map_cons]

theorem eraseStmts_eq_map (ss : List Stmt) : eraseStmts ss = ss.map Stmt.eraseSpans := by
  induction ss with
  | nil => rfl
  | cons s ss ih => rw [eraseStmts, ih, List.map_cons]

namespace Slot

@[simp] theorem eraseSpans_holding (t : Ty) (e : Expr) :
    (holding t e).eraseSpans = holding t e.eraseSpans := rfl

@[simp] theorem eraseSpans_ofType (t : Ty) : (ofType t).eraseSpans = ofType t := rfl

@[simp] theorem eraseSpans_ofLiteral (v : Literal) : (ofLiteral v).eraseSpans = ofLiteral v := rfl

@[simp] theorem literal?_eraseSpans (s : Slot) : s.eraseSpans.literal? = s.literal? := by
  obtain ⟨type, content, owned⟩ := s
  cases content <;> rfl

@[simp] theorem expr?_eraseSpans (s : Slot) :
    s.eraseSpans.expr? = s.expr?.map Expr.eraseSpans := by
  obtain ⟨type, content, owned⟩ := s
  cases content <;> rfl

@[simp] theorem isOccupied_eraseSpans (s : Slot) : s.eraseSpans.isOccupied = s.isOccupied := by
  obtain ⟨type, content, owned⟩ := s
  cases content <;> rfl

@[simp] theorem truth_eraseSpans (s : Slot) : s.eraseSpans.truth = s.truth := by
  simp [truth]

@[simp] theorem text_eraseSpans (s : Slot) : s.eraseSpans.text = s.text := by
  simp [text]

end Slot

@[simp] theorem Expr.valueType_eraseSpans (e : Expr) : e.eraseSpans.valueType = e.valueType := by
  cases e with
  | call func args keywords binder span =>
    obtain ⟨argType, args⟩ := args
    obtain ⟨keywordType, keywords⟩ := keywords
    rfl
  | print objects sep ending file flush binder span =>
    obtain ⟨itemType, objects⟩ := objects
    rfl
  | _ => rfl

/-- Expressions that agree up to spans have values of one type. -/
theorem Expr.valueType_of_eraseSpans {e e' : Expr} (h : e'.eraseSpans = e.eraseSpans) :
    e'.valueType = e.valueType := by
  rw [← valueType_eraseSpans, h, valueType_eraseSpans]

/-! ## The document -/

mutual

theorem Expr.dump_eraseSpans : (e : Expr) → e.eraseSpans.dump = e.dump
  | .literal kind value _ => by simp only [Expr.eraseSpans, Expr.dump, value.dump_eraseSpans]
  | .load id _ => by simp only [Expr.eraseSpans, Expr.dump, id.dump_eraseSpans]
  | .keyword arg value _ => by
    simp only [Expr.eraseSpans, Expr.dump, arg.dump_eraseSpans, value.dump_eraseSpans]
  | .type _ _ => rfl
  | .call func ⟨_, args⟩ ⟨_, keywords⟩ _ _ => by
    simp only [Expr.eraseSpans, Expr.dump, func.dump_eraseSpans, dumpSlots_eraseSlots args,
      dumpSlots_eraseSlots keywords]
  | .print ⟨_, objects⟩ sep ending file flush _ _ => by
    simp only [Expr.eraseSpans, Expr.dump, dumpSlots_eraseSlots objects, sep.dump_eraseSpans,
      ending.dump_eraseSpans, file.dump_eraseSpans, flush.dump_eraseSpans]

theorem Slot.dump_eraseSpans : (s : Slot) → s.eraseSpans.dump = s.dump
  | ⟨_, .empty, _⟩ => rfl
  | ⟨_, .literal _, _⟩ => rfl
  | ⟨_, .expr e, _⟩ => e.dump_eraseSpans

theorem dumpSlots_eraseSlots : (ss : List Slot) → dumpSlots (eraseSlots ss) = dumpSlots ss
  | [] => rfl
  | s :: ss => by simp only [eraseSlots, dumpSlots, s.dump_eraseSpans, dumpSlots_eraseSlots ss]

end

theorem Stmt.dump_definition_eraseSpans (id type : Slot) (span : Span) :
    (Stmt.definition id type span).eraseSpans.dump = (Stmt.definition id type span).dump := by
  obtain ⟨t, content, owned⟩ := type
  have htype := Slot.dump_eraseSpans ⟨t, content, owned⟩
  cases owned with
  | none =>
    simp only [eraseSpans, dump, id.dump_eraseSpans, htype]
    rfl
  | some value =>
    have hvalue := value.dump_eraseSpans
    simp only [Slot.eraseSpans, eraseOwned] at htype
    simp only [eraseSpans, dump, Slot.eraseSpans, eraseOwned, id.dump_eraseSpans, htype, hvalue]

mutual

/-- The document of a statement does not depend on spans. -/
theorem Stmt.dump_eraseSpans : (s : Stmt) → s.eraseSpans.dump = s.dump
  | .block ⟨body, _⟩ => by simp only [Stmt.eraseSpans, Stmt.dump, dumpStmts_eraseStmts body]
  | .expression value _ => by simp only [Stmt.eraseSpans, Stmt.dump, value.dump_eraseSpans]
  | .declaration id type _ => by
    simp only [Stmt.eraseSpans, Stmt.dump, id.dump_eraseSpans, type.dump_eraseSpans]
  | .definition id type span => Stmt.dump_definition_eraseSpans id type span

theorem dumpStmts_eraseStmts : (ss : List Stmt) → dumpStmts (eraseStmts ss) = dumpStmts ss
  | [] => rfl
  | s :: ss => by simp only [eraseStmts, dumpStmts, s.dump_eraseSpans, dumpStmts_eraseStmts ss]

end

/-! ## The source text -/

theorem toOption_bind {α β : Type} (x : Except Fault α) (f : α → Except Fault β) :
    (x >>= f).toOption = x.toOption.bind fun a => (f a).toOption := by
  cases x <;> rfl

theorem toOption_eq_some_iff {α : Type} {x : Except Fault α} {a : α} :
    x.toOption = some a ↔ x = .ok a := by
  cases x <;> simp [Except.toOption]

theorem Source.literal_eraseSpans (kind : LiteralKind) (value : Slot) (span : Span) :
    (Source.literal kind value.eraseSpans .detached).toOption =
      (Source.literal kind value span).toOption := by
  cases kind with
  | float =>
    simp only [Source.literal, Slot.floating, Slot.literal?_eraseSpans]
    split <;> rfl
  | bool => simp only [Source.literal, Slot.truth_eraseSpans]
  | none => rfl
  | int => simp only [Source.literal, Slot.whole, Slot.literal?_eraseSpans]
  | str => simp only [Source.literal, Slot.text_eraseSpans]

theorem Source.typeText_eraseSpans (t : Ty) (span : Span) :
    (Source.typeText t .detached).toOption = (Source.typeText t span).toOption := by
  unfold Source.typeText
  split <;> rfl

theorem Expr.hasArguments_eraseSpans (itemType : Ty) (objects keywords : List Slot) :
    hasArguments ⟨itemType, eraseSlots objects⟩ (keywords.map Slot.eraseSpans) =
      hasArguments ⟨itemType, objects⟩ keywords := by
  have hkeywords : (Slot.isOccupied ∘ Slot.eraseSpans) = Slot.isOccupied :=
    funext Slot.isOccupied_eraseSpans
  simp only [hasArguments, eraseSlots_eq_map, List.any_map, hkeywords]
  cases objects <;> rfl

mutual

/-- The source text of an expression does not depend on spans. -/
theorem Expr.render_eraseSpans : (e : Expr) → e.eraseSpans.render.toOption = e.render.toOption
  | .literal kind value span => by
    simp only [Expr.eraseSpans, Expr.render, Source.literal_eraseSpans kind value span]
  | .load id _ => by simp only [Expr.eraseSpans, Expr.render, Slot.text_eraseSpans]
  | .keyword arg ⟨_, content, _⟩ _ => by
    cases content with
    | empty | literal v => rfl
    | expr e =>
      have he := e.render_eraseSpans
      simp only [Expr.eraseSpans, Expr.render, Slot.eraseSpans, eraseContent, Slot.render?,
        Slot.text_eraseSpans]
      cases h : e.render <;> cases h' : e.eraseSpans.render <;> simp_all [Except.toOption]
  | .type t span => Source.typeText_eraseSpans t span
  | .call ⟨_, content, _⟩ ⟨_, args⟩ ⟨_, keywords⟩ _ _ => by
    cases content with
    | empty | literal v => rfl
    | expr e =>
      simp only [Expr.eraseSpans, Expr.render, Slot.eraseSpans, eraseContent, Slot.render?,
        toOption_bind, renderSlots_eraseSlots args, renderSlots_eraseSlots keywords,
        e.render_eraseSpans]
  | .print ⟨itemType, objects⟩ sep ending file flush binder _ => by
    have harguments :=
      Expr.hasArguments_eraseSpans itemType objects [sep, ending, file, flush]
    simp only [List.map_cons, List.map_nil] at harguments
    simp only [Expr.eraseSpans, Expr.render, harguments]
    split
    · rfl
    · simp only [toOption_bind, renderSlots_eraseSlots objects, sep.renderPart_eraseSpans,
        ending.renderPart_eraseSpans, file.renderPart_eraseSpans, flush.renderPart_eraseSpans]

theorem Slot.renderPart_eraseSpans : (s : Slot) →
    s.eraseSpans.renderPart.toOption = s.renderPart.toOption
  | ⟨_, .empty, _⟩ => rfl
  | ⟨_, .literal _, _⟩ => rfl
  | ⟨_, .expr e, _⟩ => by
    have he := e.render_eraseSpans
    simp only [Slot.eraseSpans, eraseContent, Slot.renderPart]
    cases h : e.render <;> cases h' : e.eraseSpans.render <;> simp_all [Except.toOption, Except.map]

theorem renderSlots_eraseSlots : (ss : List Slot) →
    (renderSlots (eraseSlots ss)).toOption = (renderSlots ss).toOption
  | [] => rfl
  | ⟨_, .empty, _⟩ :: ss => renderSlots_eraseSlots ss
  | ⟨_, .literal _, _⟩ :: ss => renderSlots_eraseSlots ss
  | ⟨_, .expr e, _⟩ :: ss => by
    simp only [eraseSlots, Slot.eraseSpans, eraseContent, renderSlots, toOption_bind,
      e.render_eraseSpans, renderSlots_eraseSlots ss]

end

namespace Source

theorem required_eraseSpans (held : Option Expr) (node field : String) (span : Span) :
    (required (held.map Expr.eraseSpans) node field .detached).toOption =
      (required held node field span).toOption.map Expr.eraseSpans := by
  cases held <;> rfl

end Source

theorem Slot.constraint_eraseSpans (s : Slot) :
    s.eraseSpans.constraint.bind Slot.expr? =
      (s.constraint.bind Slot.expr?).map Expr.eraseSpans := by
  obtain ⟨t, content, owned⟩ := s
  cases owned with
  | none => rfl
  | some value => exact value.expr?_eraseSpans

mutual

/-- The source text of a statement does not depend on spans. -/
theorem Stmt.render_eraseSpans (level : Nat) : (s : Stmt) →
    (s.eraseSpans.render level).toOption = (s.render level).toOption
  | .block ⟨body, _⟩ => by
    simp only [Stmt.eraseSpans, Stmt.render, toOption_bind, renderStmts_eraseStmts level body]
  | .expression value span => by
    simp only [Stmt.eraseSpans, Stmt.render, toOption_bind, Slot.expr?_eraseSpans,
      Source.required_eraseSpans _ "ExpressionStmt" "value" span, Option.bind_map,
      Function.comp_def, Expr.render_eraseSpans]
  | .declaration id type span => by
    simp only [Stmt.eraseSpans, Stmt.render, toOption_bind, Slot.expr?_eraseSpans,
      Source.required_eraseSpans _ "VariableDeclaration" "type" span, Option.bind_map,
      Function.comp_def, Expr.render_eraseSpans, Slot.text_eraseSpans]
  | .definition id type span => by
    simp only [Stmt.eraseSpans, Stmt.render, toOption_bind, Slot.expr?_eraseSpans,
      Slot.constraint_eraseSpans, Source.required_eraseSpans _ "VariableDefinition" "type" span,
      Source.required_eraseSpans _ "VariableDefinition" "value" span,
      Option.bind_map, Function.comp_def, Expr.render_eraseSpans, Slot.text_eraseSpans]

theorem renderStmts_eraseStmts (level : Nat) : (ss : List Stmt) →
    (renderStmts level (eraseStmts ss)).toOption = (renderStmts level ss).toOption
  | [] => rfl
  | s :: ss => by
    simp only [eraseStmts, renderStmts, toOption_bind, s.render_eraseSpans level,
      renderStmts_eraseStmts level ss]

end

/-- **Blocks that agree up to spans have the same source text.** -/
theorem Block.render_of_eraseSpans {b b' : Block} (h : b'.eraseSpans = b.eraseSpans)
    {level : Nat} {layout : Bool} {text : String} (hrender : b.render level layout = .ok text) :
    b'.render level layout = .ok text := by
  have hbody : eraseStmts b'.body = eraseStmts b.body := congrArg Block.body h
  have hsame : (b'.render level layout).toOption = (b.render level layout).toOption := by
    obtain ⟨body, span⟩ := b
    obtain ⟨body', span'⟩ := b'
    simp only at hbody
    simp only [Block.render, Node.render, Stmt.render, toOption_bind,
      ← renderStmts_eraseStmts level body, ← renderStmts_eraseStmts level body', hbody]
  rw [← toOption_eq_some_iff, hsame, hrender]
  rfl

end SlotTree

import SlotTree.Proofs.Tree.Alike
import SlotTree.Proofs.Tree.Fill
import SlotTree.Proofs.Tree.Paths
import SlotTree.Proofs.Tree.Proper
import SlotTree.Proofs.Tree.Room

/-!
# What has no source form

Writing a tree can fail at any node of it, and then the whole tree has no source form.  The causes
are few: a slot that must hold an expression holds none, a floating-point number is not finite, or
a type is one that no annotation can name (`Node.LacksForm`).  Slots of arguments are not among
them, since an empty one is passed over.

Which nodes count is a matter of what is written.  The slots of names and of the values of literals
are read as raw values, so an expression in one of them, which only somebody who exchanges the whole
slot can put there, does not show.  Everything else that stands in a field does
(`Node.shown`), and `Node.Prints` goes down from a node to all that is written with it.  In a tree
whose raw slots have only been edited, these are all its nodes, because no edit takes a raw value
out of a slot (`Slot.Edit.holdsRaw_apply`).

Both printers, that of nodes in general and that of `print`, are run once, in the step from a node
to what is directly below it (`Node.fails_iff`); the rest is an induction over the tree.
-/

namespace SlotTree

/-! ## Failing -/

/-- The outcome is a fault. -/
def Fails {α : Type} (outcome : Except Fault α) : Prop := ∃ fault, outcome = .error fault

section Fails

variable {α β : Type} {outcome : Except Fault α} {next : α → Except Fault β}

@[simp] theorem fails_error (fault : Fault) : Fails (.error fault : Except Fault α) := ⟨fault, rfl⟩

@[simp] theorem not_fails_ok (a : α) : ¬ Fails (.ok a) := by
  rintro ⟨fault, h⟩
  cases h

@[simp] theorem fails_error_bind (fault : Fault) : Fails (.error fault >>= next) := ⟨fault, rfl⟩

@[simp] theorem fails_ok_bind_iff (a : α) : Fails (.ok a >>= next) ↔ Fails (next a) := Iff.rfl

/-- A step fails where it starts or where it goes on, if it goes on alike from every answer. -/
theorem fails_bind_iff {P : Prop} (h : ∀ a, Fails (next a) ↔ P) :
    Fails (outcome >>= next) ↔ Fails outcome ∨ P := by
  cases outcome with
  | error fault => simp
  | ok a => simpa using h a

@[simp] theorem fails_bind_ok_iff {f : α → β} :
    Fails (outcome >>= fun a => .ok (f a)) ↔ Fails outcome := by
  rw [fails_bind_iff (P := False) (by simp), or_false]

@[simp] theorem fails_map_iff {f : α → β} : Fails (outcome.map f) ↔ Fails outcome := by
  cases outcome <;> simp [Except.map]

end Fails

/-! ## Types without an annotation -/

namespace Ty

/-- The type that is left when all lists around it are taken off. -/
def innermost : Ty → Ty
  | list item => item.innermost
  | t => t

/-- The classes that no annotation names: callables, the markers of signatures, and keywords. -/
def unwritten : List Class :=
  [.callable, .function, .variadicArg, .variadicKeywordArg, .keywordOnlyArg, .keyword]

/-- A type cannot be written exactly if it is a list of lists of something that cannot. -/
theorem written?_eq_none_iff : (t : Ty) → t.written? = none ↔ t.innermost.head ∈ unwritten
  | list item => by rw [written?, Option.map_eq_none_iff, written?_eq_none_iff item, innermost]
  | plain c => by cases c <;> decide
  | keywordOnly keyword optional arg => by simp [written?, innermost, head, unwritten]
  | callable params result isFunction => by
    cases isFunction <;> simp [written?, innermost, head, unwritten]

end Ty

/-! ## Raw values -/

namespace Slot

/-- The slot holds a raw value. -/
def HoldsRaw (s : Slot) : Prop := ∃ v, s.content = .literal v

variable {s : Slot}

theorem HoldsRaw.expr? (h : s.HoldsRaw) : s.expr? = none := by
  obtain ⟨v, hv⟩ := h
  rw [Slot.expr?, hv]

theorem HoldsRaw.add (h : s.HoldsRaw) (e : Expr) : (s.add e).2.HoldsRaw := by
  obtain ⟨v, hv⟩ := h
  have hoccupied : s.isOccupied = true := by rw [isOccupied, hv]
  refine ⟨v, ?_⟩
  simp only [Slot.add, place, hoccupied, if_true]
  split <;> exact hv

theorem HoldsRaw.remove (h : s.HoldsRaw) : s.remove.2.HoldsRaw := by
  obtain ⟨v, hv⟩ := h
  exact ⟨v, by rw [Slot.remove, hv]; exact hv⟩

theorem HoldsRaw.constrain (h : s.HoldsRaw) (t : Ty) : (s.constrain t).2.HoldsRaw := by
  obtain ⟨v, hv⟩ := h
  exact ⟨v, by rw [Slot.constrain, hv]⟩

theorem HoldsRaw.setLiteral (h : s.HoldsRaw) (v : Literal) : (s.setLiteral v).2.HoldsRaw := by
  cases hok : (s.setLiteral v).1 with
  | error fault => rwa [setLiteral_error hok]
  | ok u => exact ⟨v, by rw [(setLiteral_ok hok).2]⟩

theorem content_applyConstraint : s.applyConstraint.2.content = s.content := by
  rw [applyConstraint]
  split <;> rfl

theorem HoldsRaw.setConstraint (h : s.HoldsRaw) (owned : Slot) :
    (s.setConstraint owned).2.HoldsRaw := by
  cases hok : (s.setConstraint owned).1 with
  | error fault => rwa [setConstraint_error hok]
  | ok evicted =>
    obtain ⟨v, hv⟩ := h
    exact ⟨v, by rw [(setConstraint_ok hok).2, content_applyConstraint, hv]⟩

namespace Edit

/-- **No edit takes a raw value out of a slot**, although one may put another in its place. -/
theorem holdsRaw_apply (h : s.HoldsRaw) (edit : Edit) : (edit.apply s).2.HoldsRaw := by
  cases edit with
  | add e => exact h.add e
  | remove => exact h.remove
  | replace e => exact property_replace h HoldsRaw.remove fun hremoved => hremoved.add e
  | setLiteral v => exact h.setLiteral v
  | constrain t => exact h.constrain t
  | setConstraint owned => exact h.setConstraint owned
  | owned edit =>
    cases howns : s.constraint with
    | none => rwa [apply_owned_of_none howns]
    | some o =>
      obtain ⟨v, hv⟩ := h
      exact ⟨v, by rw [apply_owned howns]; exact hv⟩

/-- A slot that was made for a raw value holds one after any run of edits. -/
theorem holdsRaw_of_mem_states {x : Slot} (h : s.HoldsRaw) {edits : List Edit}
    (hx : x ∈ states s edits) : x.HoldsRaw := by
  induction edits generalizing s with
  | nil =>
    obtain rfl := List.mem_singleton.mp hx
    exact h
  | cons edit edits ih =>
    rcases List.mem_cons.mp hx with rfl | hx
    · exact h
    · exact ih (holdsRaw_apply h edit) hx

end Edit
end Slot

/-! ## What is written with a node -/

namespace Node

/-- The names of the fields that are read as raw values. -/
def rawFields : Node → List String
  | stmt (.declaration ..) | stmt (.definition ..) | expr (.load ..) => ["id"]
  | expr (.literal ..) => ["value"]
  | expr (.keyword ..) => ["arg"]
  | _ => []

/-- The slots that are read as raw values. -/
def rawSlots (n : Node) : List Slot :=
  (n.fields.filter fun entry => n.rawFields.contains entry.1).flatMap fun entry => entry.2.slots

/-- The slots whose expressions show in the text of the node: all but those of raw values. -/
def shownSlots (n : Node) : List Slot :=
  (n.fields.filter fun entry => !n.rawFields.contains entry.1).flatMap fun entry => entry.2.slots

/-- The nodes directly below whose text is a part of the text of the node. -/
def shown (n : Node) : List Node :=
  n.body.map stmt ++ (n.shownSlots.filterMap Slot.expr?).map expr

/-- The second node is written with the first one. -/
inductive Prints : Node → Node → Prop where
  | self (n : Node) : Prints n n
  | through {n c m : Node} (mem : c ∈ n.shown) (prints : Prints c m) : Prints n m

/-- The node lacks what its source form needs. -/
def LacksForm : Node → Prop
  | stmt (.expression value _) => value.expr? = none
  | stmt (.declaration _ type _) => type.expr? = none
  | stmt (.definition _ type _) => type.expr? = none ∨ type.constraint.bind Slot.expr? = none
  | expr (.keyword _ value _) => value.expr? = none
  | expr (.call func _ _ _ _) => func.expr? = none
  | expr (.literal .float value _) => value.floating.isFinite = false
  | expr (.type t _) => t.innermost.head ∈ Ty.unwritten
  | _ => False

theorem mem_slots_iff {n : Node} {s : Slot} :
    s ∈ n.fields.flatMap (fun entry => entry.2.slots) ↔ s ∈ n.rawSlots ∨ s ∈ n.shownSlots := by
  simp only [rawSlots, shownSlots, List.mem_flatMap, List.mem_filter, ← exists_or, ← or_and_right,
    ← and_or_left, Bool.not_eq_true', Bool.eq_false_or_eq_true, and_true]

theorem children_eq (n : Node) :
    n.children = n.body.map stmt ++
      ((n.fields.flatMap fun entry => entry.2.slots).filterMap Slot.expr?).map expr := by
  rw [children, List.filterMap_flatMap]
  rfl

theorem mem_children_of_mem_shown {n c : Node} (h : c ∈ n.shown) : c ∈ n.children := by
  rw [children_eq]
  rcases List.mem_append.mp h with h | h
  · exact List.mem_append_left _ h
  · obtain ⟨e, he, rfl⟩ := List.mem_map.mp h
    obtain ⟨s, hs, hholds⟩ := List.mem_filterMap.mp he
    refine List.mem_append_right _ (List.mem_map_of_mem (List.mem_filterMap.mpr ⟨s, ?_, hholds⟩))
    exact mem_slots_iff.mpr (Or.inr hs)

/-- Where no raw slot holds an expression, all children are written with the node. -/
theorem mem_shown_of_mem_children {n c : Node} (h : ∀ s ∈ n.rawSlots, s.expr? = none)
    (hc : c ∈ n.children) : c ∈ n.shown := by
  rw [children_eq] at hc
  rcases List.mem_append.mp hc with hc | hc
  · exact List.mem_append_left _ hc
  · obtain ⟨e, he, rfl⟩ := List.mem_map.mp hc
    obtain ⟨s, hs, hholds⟩ := List.mem_filterMap.mp he
    rcases mem_slots_iff.mp hs with hraw | hshown
    · rw [h s hraw] at hholds
      cases hholds
    · exact List.mem_append_right _
        (List.mem_map_of_mem (List.mem_filterMap.mpr ⟨s, hshown, hholds⟩))

theorem mem_preOrder_iff {n m : Node} :
    m ∈ n.preOrder ↔ m = n ∨ ∃ c ∈ n.children, m ∈ c.preOrder := by
  rw [preOrder_eq, List.mem_cons, List.mem_flatMap]

theorem Prints.mem_preOrder {n m : Node} (h : n.Prints m) : m ∈ n.preOrder := by
  induction h with
  | self n => exact mem_preOrder_iff.mpr (Or.inl rfl)
  | through mem _ ih => exact mem_preOrder_iff.mpr (Or.inr ⟨_, mem_children_of_mem_shown mem, ih⟩)

/-- Where no raw slot of the tree holds an expression, the whole tree is written. -/
theorem prints_of_mem_preOrder {n m : Node}
    (h : ∀ x ∈ n.preOrder, ∀ s ∈ x.rawSlots, s.expr? = none) (hm : m ∈ n.preOrder) :
    n.Prints m := by
  induction n using childInduction with
  | step n ih =>
    rcases mem_preOrder_iff.mp hm with rfl | ⟨c, hc, hm⟩
    · exact .self _
    · have hraw := h n (mem_preOrder_iff.mpr (Or.inl rfl))
      refine .through (mem_shown_of_mem_children hraw hc) (ih c hc (fun x hx => ?_) hm)
      exact h x (mem_preOrder_iff.mpr (Or.inr ⟨c, hc, hx⟩))

end Node

/-! ## The slots of arguments -/

theorem Slot.render?_eq (s : Slot) : s.render? = s.expr?.map Expr.render := by
  obtain ⟨type, content, constraint⟩ := s
  cases content <;> rfl

theorem Slot.fails_renderPart_iff (s : Slot) :
    Fails s.renderPart ↔ ∃ e, s.expr? = some e ∧ Fails e.render := by
  rw [renderPart_eq, render?_eq]
  cases s.expr? <;> simp

/-- Slots of arguments fail where what is in them does, and never because they are empty. -/
theorem fails_renderSlots_iff (ss : List Slot) :
    Fails (renderSlots ss) ↔ ∃ s ∈ ss, Fails s.renderPart := by
  induction ss with
  | nil => simp [renderSlots]
  | cons s ss ih =>
    rw [renderSlots_cons, fails_bind_iff fun part => fails_bind_ok_iff, ih]
    simp

theorem fails_renderStmts_iff (level : Nat) (ss : List Stmt) :
    Fails (renderStmts level ss) ↔ ∃ s ∈ ss, Fails (s.render level) := by
  induction ss with
  | nil => simp [renderStmts]
  | cons s ss ih =>
    rw [renderStmts, fails_bind_iff fun text => fails_bind_ok_iff, ih]
    simp

/-! ## What is written of each kind of node -/

/-- What a slot must hold fails if it holds none, and where the expression in it does. -/
theorem Slot.fails_required_iff (s : Slot) {node field : String} {span : Span}
    {f : String → String} :
    (Fails do
      let e ← Source.required s.expr? node field span
      let text ← e.render
      .ok (f text)) ↔ s.expr? = none ∨ Fails s.renderPart := by
  rw [fails_renderPart_iff]
  cases s.expr? with
  | none => simp [Source.required]
  | some e => simp [Source.required]

/-- Both parts of a definition are asked for before either is written, which makes a difference to
the fault only. -/
theorem Stmt.fails_definition_iff (level : Nat) (id type : Slot) (span : Span) :
    Fails ((definition id type span).render level) ↔
      (type.expr? = none ∨ type.constraint.bind Slot.expr? = none) ∨
        ∃ x ∈ type :: type.constraint.toList, Fails x.renderPart := by
  rw [render]
  cases htype : type.expr? with
  | none => simp [Source.required]
  | some declared =>
    cases hvalue : type.constraint.bind Slot.expr? with
    | none => simp [Source.required]
    | some value =>
      obtain ⟨owned, howned, hheld⟩ := Option.bind_eq_some_iff.mp hvalue
      simp only [Source.required, fails_ok_bind_iff]
      rw [fails_bind_iff fun text => fails_bind_ok_iff]
      simp [htype, howned, hheld, Slot.fails_renderPart_iff]

namespace Expr

theorem fails_keyword_iff (arg value : Slot) (span : Span) :
    Fails (keyword arg value span).render ↔ value.expr? = none ∨ Fails value.renderPart := by
  rw [render, value.render?_eq, Slot.fails_renderPart_iff]
  cases value.expr? with
  | none => simp
  | some e =>
    rw [Option.map_some]
    cases hrender : e.render <;> simp [hrender]

theorem fails_call_iff (func : Slot) (args keywords : Variadic) (binder : Binder) (span : Span) :
    Fails (call func args keywords binder span).render ↔
      func.expr? = none ∨ ∃ x ∈ func :: (args.slots ++ keywords.slots), Fails x.renderPart := by
  obtain ⟨argType, args⟩ := args
  obtain ⟨keywordType, keywords⟩ := keywords
  rw [render, func.render?_eq]
  cases hfunc : func.expr? with
  | none => simp
  | some callee =>
    have hcallee : Fails callee.render ↔ Fails func.renderPart := by
      simp [Slot.fails_renderPart_iff, hfunc]
    rw [Option.map_some, fails_bind_iff fun args => fails_bind_iff fun keywords =>
      fails_bind_ok_iff, fails_renderSlots_iff, fails_renderSlots_iff, hcallee]
    simp only [reduceCtorEq, false_or, List.mem_cons, List.mem_append, or_and_right, exists_or,
      exists_eq_left]
    rw [← or_assoc, or_comm]

/-- `print` lacks nothing, however it is written. -/
theorem fails_print_iff (objects : Variadic) (sep ending file flush : Slot) (binder : Binder)
    (span : Span) :
    Fails (print objects sep ending file flush binder span).render ↔
      ∃ x ∈ objects.slots ++ [sep, ending, file, flush], Fails x.renderPart := by
  obtain ⟨itemType, objects⟩ := objects
  rw [render]
  split
  next hbare =>
    -- a mention of `print` holds nothing, so there is nothing in it that could fail
    simp only [hasArguments, Bool.and_eq_true, Bool.not_eq_true', Bool.or_eq_false_iff,
      Bool.not_eq_false', List.isEmpty_iff, List.any_eq_false] at hbare
    obtain ⟨-, rfl, hvacant⟩ := hbare
    have hnone : ∀ x ∈ [sep, ending, file, flush], ¬ Fails x.renderPart := by
      intro x hx
      have hvacant : x.isOccupied = false := by simpa using hvacant x hx
      simp [Slot.fails_renderPart_iff, Slot.expr?_of_not_isOccupied hvacant]
    simpa using hnone
  next hcall =>
    rw [fails_bind_iff fun objects => fails_bind_iff fun sep => fails_bind_iff fun ending =>
      fails_bind_iff fun file => fails_bind_ok_iff, fails_renderSlots_iff]
    simp [or_and_right, exists_or]

end Expr

/-! ## One step down -/

namespace Node

/-- The text of the node, so many levels from the left, as its parent takes it. -/
def plainText (level : Nat) : Node → Except Fault String
  | stmt s => s.render level
  | expr e => e.render

theorem render_eq (n : Node) (level : Nat) (layout : Bool) :
    n.render level layout =
      (n.plainText level >>= fun text => .ok (if layout then Source.format text else text)) := by
  cases n <;> rfl

/-- What fails among what is shown is a statement of the body or is in a shown slot. -/
theorem exists_shown_fails_iff (level : Nat) (n : Node) :
    (∃ c ∈ n.shown, Fails (c.plainText level)) ↔
      (∃ s ∈ n.body, Fails (s.render level)) ∨ ∃ s ∈ n.shownSlots, Fails s.renderPart := by
  simp only [shown, List.mem_append, List.mem_map, or_and_right, exists_or,
    Slot.fails_renderPart_iff]
  refine or_congr ?_ ?_
  · simp [plainText]
  · simp only [List.mem_filterMap]
    constructor
    · rintro ⟨c, ⟨e, ⟨s, hs, he⟩, rfl⟩, hfails⟩
      exact ⟨s, hs, e, he, hfails⟩
    · rintro ⟨s, hs, e, he, hfails⟩
      exact ⟨expr e, ⟨e, ⟨s, hs, he⟩, rfl⟩, hfails⟩

/-- A statement fails if it lacks something, and where a statement or a slot that it shows
does. -/
theorem fails_stmt_iff (level : Nat) (s : Stmt) :
    Fails (s.render level) ↔ (stmt s).LacksForm ∨
      (∃ t ∈ (stmt s).body, Fails (t.render level)) ∨
        ∃ x ∈ (stmt s).shownSlots, Fails x.renderPart := by
  cases s with
  | block b =>
    obtain ⟨lines, span⟩ := b
    rw [Stmt.render, fails_bind_ok_iff, fails_renderStmts_iff]
    simp [LacksForm, body, shownSlots, fields, Stmt.fields]
  | expression value span =>
    rw [Stmt.render, value.fails_required_iff]
    simp [LacksForm, body, shownSlots, rawFields, fields, Stmt.fields, Field.slots]
  | declaration id type span =>
    rw [Stmt.render, type.fails_required_iff]
    simp [LacksForm, body, shownSlots, rawFields, fields, Stmt.fields, Field.slots]
  | definition id type span =>
    have hslots : (stmt (.definition id type span)).shownSlots = type :: type.constraint.toList := by
      cases hvalue : type.constraint <;>
        simp [shownSlots, rawFields, fields, Stmt.fields, Field.slots, hvalue]
    rw [Stmt.fails_definition_iff, hslots]
    simp [LacksForm, body]

/-- An expression fails if it lacks something, and where a slot that it shows does. -/
theorem fails_expr_iff (e : Expr) :
    Fails e.render ↔ (expr e).LacksForm ∨ ∃ x ∈ (expr e).shownSlots, Fails x.renderPart := by
  cases e with
  | literal kind value span =>
    rw [Expr.render]
    cases kind with
    | float =>
      by_cases hfinite : value.floating.isFinite <;>
        simp [Source.literal, Source.float?, hfinite, LacksForm, shownSlots, rawFields, fields,
          Expr.fields]
    | _ => simp [Source.literal, LacksForm, shownSlots, rawFields, fields, Expr.fields]
  | load id span => simp [Expr.render, LacksForm, shownSlots, rawFields, fields, Expr.fields]
  | keyword arg value span =>
    rw [Expr.fails_keyword_iff]
    simp [LacksForm, shownSlots, rawFields, fields, Expr.fields, Field.slots]
  | type t span =>
    rw [Expr.render, Source.typeText]
    simp only [LacksForm, ← Ty.written?_eq_none_iff]
    cases t.written? <;> simp [shownSlots, fields, Expr.fields]
  | call func args keywords binder span =>
    rw [Expr.fails_call_iff]
    simp [LacksForm, shownSlots, rawFields, fields, Expr.fields, Field.slots]
  | print objects sep ending file flush binder span =>
    rw [Expr.fails_print_iff]
    simp [LacksForm, shownSlots, rawFields, fields, Expr.fields, Field.slots]

/-- **A node fails if it lacks something, and where something below it does that shows.** -/
theorem fails_iff (level : Nat) (n : Node) :
    Fails (n.plainText level) ↔ n.LacksForm ∨ ∃ c ∈ n.shown, Fails (c.plainText level) := by
  rw [exists_shown_fails_iff]
  cases n with
  | stmt s => exact fails_stmt_iff level s
  | expr e =>
    rw [plainText, fails_expr_iff]
    simp [body]

/-! ## Down the tree -/

theorem fails_plainText_iff (level : Nat) (n : Node) :
    Fails (n.plainText level) ↔ ∃ m, n.Prints m ∧ m.LacksForm := by
  induction n using childInduction with
  | step n ih =>
    have hshown : (∃ c ∈ n.shown, Fails (c.plainText level)) ↔
        ∃ c ∈ n.shown, ∃ m, c.Prints m ∧ m.LacksForm :=
      exists_congr fun c => and_congr_right fun hc => ih c (mem_children_of_mem_shown hc)
    rw [fails_iff, hshown]
    constructor
    · rintro (hlacks | ⟨c, hc, m, hprints, hlacks⟩)
      · exact ⟨n, .self n, hlacks⟩
      · exact ⟨m, .through hc hprints, hlacks⟩
    · rintro ⟨m, hprints, hlacks⟩
      cases hprints with
      | self => exact Or.inl hlacks
      | through hc hprints => exact Or.inr ⟨_, hc, m, hprints, hlacks⟩

/-- **A tree has no source form if and only if a node that is written with it lacks one.**  The
level and the layout have no part in it.  In a tree whose raw slots have only been edited, every
node is written. -/
theorem render_fails_iff (n : Node) (level : Nat) (layout : Bool) :
    ((∃ fault, n.render level layout = .error fault) ↔ ∃ m, n.Prints m ∧ m.LacksForm) ∧
      ((∀ x ∈ n.preOrder, ∀ s ∈ x.rawSlots, ∃ v edits, s ∈ Slot.Edit.states (.ofLiteral v) edits) →
        ∀ m, n.Prints m ↔ m ∈ n.preOrder) := by
  refine ⟨?_, fun hedited m => ⟨Prints.mem_preOrder, prints_of_mem_preOrder fun x hx s hs => ?_⟩⟩
  · rw [← fails_plainText_iff level, render_eq]
    exact fails_bind_ok_iff
  · obtain ⟨v, edits, hs⟩ := hedited x hx s hs
    exact (Slot.Edit.holdsRaw_of_mem_states ⟨v, rfl⟩ hs).expr?

/-- A floating-point literal that is no number. -/
def undefinedNumber : Expr := .ofLiteral (.float ⟨0x7FF8000000000000⟩) .detached

/-- An argument under the keyword `k`. -/
def undefinedArgument : Expr :=
  .keyword (.ofLiteral (.str "k")) (.holding (.plain .object) undefinedNumber) .detached

/-- A name that was changed from `g` to `f`. -/
def changedName : Slot := ((Slot.ofLiteral (.str "g")).setLiteral (.str "f")).2

/-- A call whose first argument is missing. -/
def gappedCall : Expr :=
  .call (.holding (.plain .object) (.load changedName .detached))
    ⟨.plain .object, [.object, .holding (.plain .object) undefinedArgument]⟩
    (.ofType (.plain .keyword)) {} .detached

/-- The call as a statement. -/
def gappedLine : Stmt := .expression (.holding (.plain .object) gappedCall) .detached

/-- The statement in a block in a block. -/
def gappedTree : Node := stmt (.block ⟨[.block ⟨[gappedLine], .detached⟩], .detached⟩)

/-- The gap in the call does no harm, but the number in its last argument has no source form, and
so the tree around the call has none. -/
theorem gappedTree_has_no_form :
    (∀ x ∈ gappedTree.preOrder, ∀ s ∈ x.rawSlots,
        ∃ v edits, s ∈ Slot.Edit.states (.ofLiteral v) edits) ∧
      gappedTree.Prints (expr undefinedNumber) ∧
      ∃ fault, gappedTree.render 2 true = .error fault := by
  have hnodes : gappedTree.preOrder =
      [gappedTree, stmt (.block ⟨[gappedLine], .detached⟩), stmt gappedLine, expr gappedCall,
        expr (.load changedName .detached), expr undefinedArgument, expr undefinedNumber] := by
    have htree : gappedTree.children = [stmt (.block ⟨[gappedLine], .detached⟩)] := rfl
    have hblock : (stmt (.block ⟨[gappedLine], .detached⟩)).children = [stmt gappedLine] := rfl
    have hline : (stmt gappedLine).children = [expr gappedCall] := rfl
    have hcall : (expr gappedCall).children =
        [expr (.load changedName .detached), expr undefinedArgument] := rfl
    have hname : (expr (.load changedName .detached)).children = [] := rfl
    have hargument : (expr undefinedArgument).children = [expr undefinedNumber] := rfl
    have hnumber : (expr undefinedNumber).children = [] := rfl
    simp [preOrder_eq, htree, hblock, hline, hcall, hname, hargument, hnumber]
  have hedited : ∀ x ∈ gappedTree.preOrder, ∀ s ∈ x.rawSlots,
      ∃ v edits, s ∈ Slot.Edit.states (.ofLiteral v) edits := by
    have hfresh : ∀ v, ∃ v' edits, Slot.ofLiteral v ∈ Slot.Edit.states (.ofLiteral v') edits :=
      fun v => ⟨v, [], List.mem_cons_self⟩
    have hchanged : ∃ v edits, changedName ∈ Slot.Edit.states (.ofLiteral v) edits :=
      ⟨.str "g", [.setLiteral (.str "f")], List.mem_cons_of_mem _ List.mem_cons_self⟩
    have hraw : gappedTree.preOrder.flatMap rawSlots =
        [changedName, .ofLiteral (.str "k"), .ofLiteral (.float ⟨0x7FF8000000000000⟩)] := by
      rw [hnodes]
      rfl
    intro x hx s hs
    have hs : s ∈ gappedTree.preOrder.flatMap rawSlots := List.mem_flatMap.mpr ⟨x, hx, hs⟩
    simp only [hraw, List.mem_cons, List.not_mem_nil, or_false] at hs
    rcases hs with rfl | rfl | rfl
    · exact hchanged
    · exact hfresh _
    · exact hfresh _
  have hform := render_fails_iff gappedTree 2 true
  have hprints : gappedTree.Prints (expr undefinedNumber) := by
    refine (hform.2 hedited _).mpr ?_
    simp [hnodes]
  exact ⟨hedited, hprints, hform.1.mpr ⟨_, hprints, (by decide : Binary64.isFinite _ = false)⟩⟩

end Node
end SlotTree

import SlotTree.Tree.Block
import SlotTree.Tree.Callable

/-!
# Slots stay well typed

A slot is well typed if what it holds fits the type that it has.  Two things make this
more than a property of the moment at which a slot is filled.  The type of a slot can
change afterwards, because `constrain` re-types a slot whatever it holds; and it can
change through another slot, because a type that lands in a slot re-types the slot that
it owns.  An expression that no longer fits is then taken out, as a side effect of an edit
somewhere else.

An editor has parts of the tree in hand: slots, rest fields, expressions and statements
(`Part`).  It gets them from a constructor, from an operation, or by reaching into a part
that it already has, and it may put a slot back wherever it found it.  `Reachable` lists
these ways, each operation with the state that it leaves, whether it succeeds or fails.

The invariant looks at every slot within a part, at any depth (`Within`): in the fields
of the nodes, in what the slots hold, and in the slots that they own.  One lemma for each
operation shows that it keeps the invariant, and an induction over the ways of an editor
collects them (`Reachable.typed`).
-/

namespace SlotTree

/-- A part of the tree that an editor can have in hand. -/
inductive Part where
  | slot (slot : Slot)
  | variadic (variadic : Variadic)
  | expr (expr : Expr)
  | stmt (stmt : Stmt)

/-- A field as a part of the tree. -/
def Field.part : Field → Part
  | slot s => .slot s
  | variadic v => .variadic v

/-! ## The slots of a part -/

/-- The slot stands within the part, at any depth. -/
inductive Within : Slot → Part → Prop where
  | self {s : Slot} : Within s (.slot s)
  | owned {x s owned : Slot} (owns : s.constraint = some owned) (within : Within x (.slot owned)) :
      Within x (.slot s)
  | occupant {x s : Slot} {e : Expr} (holds : s.expr? = some e) (within : Within x (.expr e)) :
      Within x (.slot s)
  | item {x s : Slot} {v : Variadic} (mem : s ∈ v.slots) (within : Within x (.slot s)) :
      Within x (.variadic v)
  | field {x : Slot} {e : Expr} {entry : String × Field} (mem : entry ∈ e.fields)
      (within : Within x entry.2.part) : Within x (.expr e)
  | stmtField {x : Slot} {s : Stmt} {entry : String × Field} (mem : entry ∈ s.fields)
      (within : Within x entry.2.part) : Within x (.stmt s)
  | body {x : Slot} {b : Block} {s : Stmt} (mem : s ∈ b.body) (within : Within x (.stmt s)) :
      Within x (.stmt (.block b))

/-- Every slot within the part fits what it holds. -/
def Part.Typed (p : Part) : Prop :=
  ∀ s, Within s p → ∀ e, s.expr? = some e → e.valueType.fits s.type = true

namespace Part

theorem typed_slot_iff {s : Slot} :
    (slot s).Typed ↔
      (∀ e, s.expr? = some e → e.valueType.fits s.type = true ∧ (expr e).Typed) ∧
        ∀ owned, s.constraint = some owned → (slot owned).Typed := by
  constructor
  · intro h
    refine ⟨fun e he => ⟨h s .self e he, ?_⟩, ?_⟩
    · exact fun x hx => h x (.occupant he hx)
    · exact fun owned howned x hx => h x (.owned howned hx)
  · rintro ⟨hholds, howns⟩ x hx
    cases hx with
    | self => exact fun e he => (hholds e he).1
    | owned owns within => exact howns _ owns x within
    | occupant holds within => exact (hholds _ holds).2 x within

theorem typed_variadic_iff {v : Variadic} :
    (variadic v).Typed ↔ ∀ s ∈ v.slots, (slot s).Typed := by
  constructor
  · exact fun h s hs x hx => h x (.item hs hx)
  · intro h x hx
    cases hx with
    | item mem within => exact h _ mem x within

theorem typed_expr_iff {e : Expr} :
    (expr e).Typed ↔ ∀ entry ∈ e.fields, entry.2.part.Typed := by
  constructor
  · exact fun h entry hentry x hx => h x (.field hentry hx)
  · intro h x hx
    cases hx with
    | field mem within => exact h _ mem x within

theorem typed_block_iff {b : Block} :
    (stmt (.block b)).Typed ↔ ∀ s ∈ b.body, (stmt s).Typed := by
  constructor
  · exact fun h s hs x hx => h x (.body hs hx)
  · intro h x hx
    cases hx with
    | body mem within => exact h _ mem x within
    | stmtField mem within => simp [Stmt.fields] at mem

/-- A statement that is no block has all its slots in its fields. -/
theorem typed_stmt_iff {s : Stmt} (hs : ∀ b, s ≠ .block b) :
    (stmt s).Typed ↔ ∀ entry ∈ s.fields, entry.2.part.Typed := by
  constructor
  · exact fun h entry hentry x hx => h x (.stmtField hentry hx)
  · intro h x hx
    cases hx with
    | body mem within => exact absurd rfl (hs _)
    | stmtField mem within => exact h _ mem x within

@[simp] theorem typed_expression_iff {value : Slot} {span : Span} :
    (stmt (.expression value span)).Typed ↔ (slot value).Typed := by
  rw [typed_stmt_iff (by simp)]
  simp [Stmt.fields, Field.part]

@[simp] theorem typed_declaration_iff {id type : Slot} {span : Span} :
    (stmt (.declaration id type span)).Typed ↔ (slot id).Typed ∧ (slot type).Typed := by
  rw [typed_stmt_iff (by simp)]
  simp [Stmt.fields, Field.part]

/-- The value of a definition stands in the slot that its type slot owns. -/
@[simp] theorem typed_definition_iff {id type : Slot} {span : Span} :
    (stmt (.definition id type span)).Typed ↔ (slot id).Typed ∧ (slot type).Typed := by
  rw [typed_stmt_iff (by simp), Stmt.fields]
  constructor
  · intro h
    exact ⟨h _ List.mem_cons_self, h ("type", .slot type) (by simp)⟩
  · rintro ⟨hid, htype⟩ entry hentry
    simp only [List.mem_cons] at hentry
    rcases hentry with rfl | rfl | hentry
    · exact hid
    · exact htype
    · cases howned : type.constraint with
      | none => simp [howned] at hentry
      | some owned =>
        simp only [howned, List.mem_singleton] at hentry
        subst hentry
        exact (typed_slot_iff.mp htype).2 owned howned

/-! ## Editing a slot -/

theorem typed_ofType (t : Ty) : (slot (.ofType t)).Typed := by
  rw [typed_slot_iff]
  exact ⟨by simp, by simp [Slot.ofType]⟩

theorem typed_ofLiteral (v : Literal) : (slot (.ofLiteral v)).Typed := by
  rw [typed_slot_iff]
  exact ⟨by simp [Slot.expr?, Slot.ofLiteral], by simp [Slot.ofLiteral]⟩

/-- A slot that holds no expression is well typed if the slot that it owns is. -/
theorem typed_of_expr?_eq_none {s : Slot} (h : s.expr? = none)
    (howns : ∀ owned, s.constraint = some owned → (slot owned).Typed) : (slot s).Typed :=
  typed_slot_iff.mpr ⟨by simp [h], howns⟩

theorem typed_remove {s : Slot} (h : (slot s).Typed) : (slot s.remove.2).Typed := by
  rw [Slot.remove]
  split
  · exact typed_of_expr?_eq_none rfl (typed_slot_iff.mp h).2
  · exact h

theorem typed_setLiteral {s : Slot} {v : Literal} (h : (slot s).Typed) :
    (slot (s.setLiteral v).2).Typed := by
  rw [Slot.setLiteral]
  split
  · exact h
  · split
    · exact h
    · exact typed_of_expr?_eq_none rfl (typed_slot_iff.mp h).2

/-- A slot that is re-typed gives up what no longer fits. -/
theorem typed_constrain {s : Slot} {t : Ty} (h : (slot s).Typed) :
    (slot (s.constrain t).2).Typed := by
  obtain ⟨hholds, howns⟩ := typed_slot_iff.mp h
  rw [Slot.constrain]
  cases hcontent : s.content with
  | empty => exact typed_of_expr?_eq_none rfl howns
  | literal v => exact typed_of_expr?_eq_none rfl howns
  | expr e =>
    have he : s.expr? = some e := by simp [Slot.expr?, hcontent]
    simp only
    split
    · next hfits =>
      refine typed_slot_iff.mpr ⟨fun e' he' => ?_, howns⟩
      obtain rfl : e = e' := Option.some.inj he'
      exact ⟨hfits, (hholds e he).2⟩
    · exact typed_of_expr?_eq_none rfl howns

/-- A type that lands in a slot re-types the slot that it owns. -/
theorem typed_applyConstraint {s : Slot} (h : (slot s).Typed) :
    (slot s.applyConstraint.2).Typed := by
  obtain ⟨hholds, howns⟩ := typed_slot_iff.mp h
  rw [Slot.applyConstraint]
  split
  · next t owned _ howned =>
    refine typed_slot_iff.mpr ⟨hholds, fun owned' howned' => ?_⟩
    obtain rfl : (owned.constrain t).2 = owned' := Option.some.inj howned'
    exact typed_constrain (howns owned howned)
  · exact h

theorem typed_place {s : Slot} {e : Expr} (h : (slot s).Typed) (he : (expr e).Typed) :
    (slot (s.place e).2).Typed := by
  rw [Slot.place]
  split
  · exact h
  split
  · exact h
  split
  · exact h
  · next hfits =>
    refine typed_applyConstraint (typed_slot_iff.mpr ⟨fun e' he' => ?_, (typed_slot_iff.mp h).2⟩)
    obtain rfl : e = e' := Option.some.inj he'
    exact ⟨by simpa [Slot.accepts] using hfits, he⟩

theorem typed_add {s : Slot} {e : Expr} (h : (slot s).Typed) (he : (expr e).Typed) :
    (slot (s.add e).2).Typed := typed_place h he

theorem typed_replace {s : Slot} {e : Expr} (h : (slot s).Typed) (he : (expr e).Typed) :
    (slot (s.replace e).2).Typed := by
  rw [Slot.replace]
  split
  · exact h
  · exact typed_add (typed_remove h) he

theorem typed_withConstraint {s owned : Slot} (h : (slot s).Typed) (ho : (slot owned).Typed) :
    (slot { s with constraint := some owned }).Typed := by
  refine typed_slot_iff.mpr ⟨(typed_slot_iff.mp h).1, fun owned' howned' => ?_⟩
  obtain rfl : owned = owned' := Option.some.inj howned'
  exact ho

theorem typed_setConstraint {s owned : Slot} (h : (slot s).Typed) (ho : (slot owned).Typed) :
    (slot (s.setConstraint owned).2).Typed := by
  rw [Slot.setConstraint]
  split
  · exact h
  · exact typed_applyConstraint (typed_withConstraint h ho)

theorem typed_editConstraint {α : Type} {s s' : Slot} {edit : Slot → α × Slot} {a : α}
    (h : (slot s).Typed) (hedit : ∀ owned, s.constraint = some owned → (slot (edit owned).2).Typed)
    (hs' : s.editConstraint edit = some (a, s')) : (slot s').Typed := by
  obtain ⟨owned, howned, hs'⟩ := Option.map_eq_some_iff.mp hs'
  obtain ⟨-, rfl⟩ := Prod.mk.inj hs'
  exact typed_withConstraint h (hedit owned howned)

/-! ## Editing a rest field -/

theorem typed_push {v : Variadic} {e : Expr} (h : (variadic v).Typed) (he : (expr e).Typed) :
    (variadic (v.push e).2).Typed := by
  have hadd : (slot ((Slot.ofType v.itemType).add e).2).Typed := typed_add (typed_ofType _) he
  rw [Variadic.push]
  split
  · next slot hslot =>
    rw [hslot] at hadd
    rw [typed_variadic_iff] at h ⊢
    intro s hs
    rcases List.mem_append.mp hs with hs | hs
    · exact h s hs
    · rw [List.mem_singleton.mp hs]
      exact hadd
  · exact h

theorem typed_removeAt {v : Variadic} {index : Nat} (h : (variadic v).Typed) :
    (variadic (v.remove index).2).Typed := by
  rw [Variadic.remove]
  split
  · rw [typed_variadic_iff] at h ⊢
    exact fun s hs => h s (List.mem_of_mem_eraseIdx hs)
  · exact h

theorem typed_editAt {α : Type} {v v' : Variadic} {index : Nat} {edit : Slot → α × Slot} {a : α}
    (h : (variadic v).Typed) (hedit : ∀ s, v.get? index = some s → (slot (edit s).2).Typed)
    (hv' : v.editAt index edit = some (a, v')) : (variadic v').Typed := by
  obtain ⟨s, hs, hv'⟩ := Option.map_eq_some_iff.mp hv'
  obtain ⟨-, rfl⟩ := Prod.mk.inj hv'
  rw [typed_variadic_iff] at h ⊢
  intro x hx
  rcases List.mem_or_eq_of_mem_set hx with hx | rfl
  · exact h x hx
  · exact hedit s hs

theorem typed_addToPart {f : Field} {e : Expr} (h : f.part.Typed) (he : (expr e).Typed) :
    (f.add e).2.part.Typed := by
  cases f with
  | slot s => exact typed_add h he
  | variadic v => exact typed_push h he

/-! ## Editing an expression -/

/-- Writing a field back changes that field and no other. -/
theorem mem_fields_setField {e : Expr} {name : String} {f : Field} {entry : String × Field}
    (h : entry ∈ (e.setField name f).fields) : entry ∈ e.fields ∨ entry.2 = f := by
  unfold Expr.setField at h
  split at h <;> simp only [Expr.fields, List.mem_cons, List.not_mem_nil, or_false] at h ⊢ <;>
    grind

theorem typed_setField {e : Expr} {name : String} {f : Field} (h : (expr e).Typed)
    (hf : f.part.Typed) : (expr (e.setField name f)).Typed := by
  rw [typed_expr_iff] at h ⊢
  intro entry hentry
  rcases mem_fields_setField hentry with hentry | rfl
  · exact h entry hentry
  · exact hf

theorem mem_of_get?_eq_some {fields : Fields} {name : String} {f : Field}
    (h : Fields.get? fields name = some f) : ∃ key, (key, f) ∈ fields := by
  induction fields with
  | nil => simp [Fields.get?] at h
  | cons entry rest ih =>
    rw [Fields.get?] at h
    split at h
    · obtain rfl := Option.some.inj h
      exact ⟨entry.1, List.mem_cons_self⟩
    · obtain ⟨key, hkey⟩ := ih h
      exact ⟨key, List.mem_cons_of_mem _ hkey⟩

theorem typed_field? {e : Expr} {name : String} {f : Field} (h : (expr e).Typed)
    (hf : e.field? name = some f) : f.part.Typed := by
  obtain ⟨key, hkey⟩ := mem_of_get?_eq_some hf
  exact typed_expr_iff.mp h (key, f) hkey

theorem typed_addToField {e x : Expr} {name : String} (h : (expr e).Typed)
    (hx : (expr x).Typed) : (expr (e.addToField name x).2).Typed := by
  rw [Expr.addToField]
  split
  · exact h
  · next f hf => exact typed_setField h (typed_addToPart (typed_field? h hf) hx)

/-- The fields of an expression do not depend on its binder. -/
@[simp] theorem fields_setBinder (binder : Binder) (e : Expr) :
    (e.setBinder binder).fields = e.fields := by
  cases e <;> rfl

theorem typed_setBinder {binder : Binder} {e : Expr} :
    (expr (e.setBinder binder)).Typed ↔ (expr e).Typed := by
  rw [typed_expr_iff, typed_expr_iff, fields_setBinder]

theorem typed_markInvoked {e : Expr} (h : (expr e).Typed) : (expr e.markInvoked).Typed := by
  rw [Expr.markInvoked]
  split
  · exact typed_setBinder.mpr h
  · exact h

/-! ## Binding arguments -/

/-- Every slot within the fields fits what it holds. -/
def TypedFields (fields : Fields) : Prop := ∀ entry ∈ fields, entry.2.part.Typed

theorem TypedFields.get? {fields : Fields} (h : TypedFields fields) {name : String} {f : Field}
    (hf : Fields.get? fields name = some f) : f.part.Typed := by
  obtain ⟨key, hkey⟩ := mem_of_get?_eq_some hf
  exact h (key, f) hkey

theorem TypedFields.set {fields : Fields} (h : TypedFields fields) {f : Field} (name : String)
    (hf : f.part.Typed) : TypedFields (Fields.set fields name f) := by
  induction fields with
  | nil => exact h
  | cons entry rest ih =>
    have hrest : TypedFields rest := fun e he => h e (List.mem_cons_of_mem _ he)
    rw [Fields.set]
    split
    · intro e he
      rcases List.mem_cons.mp he with rfl | he
      · exact hf
      · exact hrest e he
    · intro e he
      rcases List.mem_cons.mp he with rfl | he
      · exact h entry List.mem_cons_self
      · exact ih hrest e he

theorem typed_setFields {fields : Fields} (h : TypedFields fields) {e : Expr}
    (he : (expr e).Typed) : (expr (e.setFields fields)).Typed := by
  induction fields generalizing e with
  | nil => exact he
  | cons entry rest ih =>
    exact ih (fun x hx => h x (List.mem_cons_of_mem _ hx))
      (typed_setField he (h entry List.mem_cons_self))

theorem typedFields_positional {callee : String} {params : List Parameter} {b : Binding}
    {argument : Expr} (h : TypedFields b.fields) (ha : (expr argument).Typed) :
    TypedFields (Binding.positional callee params b argument).2.fields := by
  have hoffered : TypedFields b.offered.fields := h
  simp only [Binding.positional]
  split
  · exact h
  split
  · exact h
  split
  · -- a slot of its own
    next slot hslot =>
    split
    · next slot' hadd =>
      refine hoffered.set _ ?_
      have := typed_add (e := argument) (hoffered.get? hslot) ha
      rwa [hadd] at this
    · exact h
  · -- one more slot of the rest field
    next rest hrest =>
    split
    · next rest' hpush =>
      refine hoffered.set _ ?_
      have := typed_push (e := argument) (hoffered.get? hrest) ha
      rwa [hpush] at this
    · exact h
  · exact h

theorem typed_keywordOf {arg : String} {value e : Expr} {span : Span} (hv : (expr value).Typed)
    (h : Expr.keywordOf arg value span = .ok e) : (expr e).Typed := by
  have hadd : (slot (Slot.object.add value).2).Typed := typed_add (typed_ofType _) hv
  rw [Expr.keywordOf] at h
  split at h
  · next slot hslot =>
    obtain rfl := Except.ok.inj h
    rw [hslot] at hadd
    rw [typed_expr_iff]
    simp only [Expr.fields, List.mem_cons, List.not_mem_nil, or_false]
    rintro entry (rfl | rfl)
    · exact typed_ofLiteral _
    · exact hadd
  · cases h

theorem typedFields_keyword {callee : String} {params : List Parameter} {b : Binding}
    {keyword : String} {argument : Expr} (h : TypedFields b.fields)
    (ha : (expr argument).Typed) :
    TypedFields (Binding.keyword callee params b keyword argument).2.fields := by
  have hoffered : TypedFields b.offered.fields := h
  simp only [Binding.keyword]
  split
  · split
    · next slot hslot =>
      split
      · exact h
      split
      · next slot' hadd =>
        refine hoffered.set _ ?_
        have := typed_add (e := argument) (hoffered.get? hslot) ha
        rwa [hadd] at this
      · exact h
    · exact h
  · split
    · exact h
    split
    · next rest hrest =>
      split
      · exact h
      split
      · exact h
      · next node hnode =>
        split
        · next rest' hpush =>
          refine hoffered.set _ ?_
          have := typed_push (hoffered.get? hrest) (typed_keywordOf ha hnode)
          rwa [hpush] at this
        · exact h
    · exact h

theorem typedFields_fieldsNamed {e : Expr} (h : (expr e).Typed) (names : List String) :
    TypedFields (e.fieldsNamed names) :=
  fun entry hentry => typed_expr_iff.mp h entry (List.mem_filter.mp hentry).1

theorem typed_withBinding {e : Expr} {outcome : Edited Binding Unit} (h : (expr e).Typed)
    (hb : TypedFields outcome.2.fields) : (expr (e.withBinding outcome).2).Typed :=
  typed_setBinder.mpr (typed_setFields hb h)

theorem typed_addArgument? {e e' argument : Expr} {outcome : Except Fault Unit}
    (h : (expr e).Typed) (ha : (expr argument).Typed)
    (he : e.addArgument? argument = some (outcome, e')) : (expr e').Typed := by
  obtain ⟨signature, -, hbinding⟩ := Option.map_eq_some_iff.mp he
  obtain ⟨-, rfl⟩ := Prod.mk.inj hbinding
  exact typed_withBinding h (typedFields_positional (typedFields_fieldsNamed h _) ha)

theorem typed_addKeyword? {e e' argument : Expr} {keyword : String} {outcome : Except Fault Unit}
    (h : (expr e).Typed) (ha : (expr argument).Typed)
    (he : e.addKeyword? keyword argument = some (outcome, e')) : (expr e').Typed := by
  obtain ⟨signature, -, hbinding⟩ := Option.map_eq_some_iff.mp he
  obtain ⟨-, rfl⟩ := Prod.mk.inj hbinding
  exact typed_withBinding h (typedFields_keyword (typedFields_fieldsNamed h _) ha)

theorem typed_callOf {func e : Expr} {span : Span} (hf : (expr func).Typed)
    (h : Expr.callOf func span = .ok e) : (expr e).Typed := by
  have hadd : (slot (Slot.object.add func).2).Typed := typed_add (typed_ofType _) hf
  rw [Expr.callOf] at h
  split at h
  · next slot hslot =>
    obtain rfl := Except.ok.inj h
    rw [hslot] at hadd
    rw [typed_expr_iff]
    simp only [Expr.fields, List.mem_cons, List.not_mem_nil, or_false]
    rintro entry (rfl | rfl | rfl)
    · exact hadd
    · simp [Field.part, typed_variadic_iff, Variadic.ofType]
    · simp [Field.part, typed_variadic_iff, Variadic.ofType]
  · cases h

/-! ## Editing a statement -/

theorem typed_objectTypeSlot : (slot Stmt.objectTypeSlot).Typed := by
  refine typed_slot_iff.mpr ⟨fun e he => ?_, by simp [Stmt.objectTypeSlot]⟩
  obtain rfl : Expr.type (.plain .object) .detached = e := Option.some.inj he
  exact ⟨by decide, typed_expr_iff.mpr (by simp [Expr.fields])⟩

theorem typed_ofExpr {value : Expr} {s : Stmt} {span : Span} (hv : (expr value).Typed)
    (h : Stmt.ofExpr value span = .ok s) : (stmt s).Typed := by
  have hadd : (slot (Slot.object.add value).2).Typed := typed_add (typed_ofType _) hv
  rw [Stmt.ofExpr] at h
  split at h
  · next slot hslot =>
    obtain rfl := Except.ok.inj h
    rw [hslot] at hadd
    exact typed_expression_iff.mpr hadd
  · cases h

theorem typed_stmtSetField {s : Stmt} {name : String} {f : Field} (h : (stmt s).Typed)
    (hf : f.part.Typed) : (stmt (s.setField name f)).Typed := by
  unfold Stmt.setField
  split
  · exact typed_expression_iff.mpr hf
  · exact typed_declaration_iff.mpr ⟨hf, (typed_declaration_iff.mp h).2⟩
  · exact typed_declaration_iff.mpr ⟨(typed_declaration_iff.mp h).1, hf⟩
  · exact typed_definition_iff.mpr ⟨hf, (typed_definition_iff.mp h).2⟩
  · exact typed_definition_iff.mpr ⟨(typed_definition_iff.mp h).1, hf⟩
  · obtain ⟨hid, htype⟩ := typed_definition_iff.mp h
    exact typed_definition_iff.mpr ⟨hid, typed_withConstraint htype hf⟩
  · exact h

theorem typed_stmtField? {s : Stmt} {name : String} {f : Field} (h : (stmt s).Typed)
    (hf : s.field? name = some f) : f.part.Typed := by
  obtain ⟨key, hkey⟩ := mem_of_get?_eq_some hf
  exact fun x hx => h x (.stmtField hkey hx)

theorem typed_stmtAddToField {s : Stmt} {e : Expr} {name : String} (h : (stmt s).Typed)
    (he : (expr e).Typed) : (stmt (s.addToField name e).2).Typed := by
  rw [Stmt.addToField]
  split
  · exact h
  · next f hf => exact typed_stmtSetField h (typed_addToPart (typed_stmtField? h hf) he)

theorem typed_retype {s : Slot} {t : Ty} {span : Span} (h : (slot s).Typed) :
    (slot (Stmt.retype s t span).2).Typed :=
  typed_place (typed_remove h) (typed_expr_iff.mpr (by simp [Expr.fields]))

theorem typed_setType? {s s' : Stmt} {t : Ty} {span : Span}
    {outcome : Except Fault (Option Expr)} (h : (stmt s).Typed)
    (hs : s.setType? t span = some (outcome, s')) : (stmt s').Typed := by
  cases s with
  | block b => simp [Stmt.setType?] at hs
  | expression value here => simp [Stmt.setType?] at hs
  | declaration id slot here =>
    obtain ⟨-, rfl⟩ := Prod.mk.inj (Option.some.inj hs)
    obtain ⟨hid, htype⟩ := typed_declaration_iff.mp h
    exact typed_declaration_iff.mpr ⟨hid, typed_retype htype⟩
  | definition id slot here =>
    obtain ⟨-, rfl⟩ := Prod.mk.inj (Option.some.inj hs)
    obtain ⟨hid, htype⟩ := typed_definition_iff.mp h
    exact typed_definition_iff.mpr ⟨hid, typed_retype htype⟩

theorem typed_setValue? {s s' : Stmt} {value : Expr} {outcome : Except Fault Unit}
    (h : (stmt s).Typed) (hv : (expr value).Typed)
    (hs : s.setValue? value = some (outcome, s')) : (stmt s').Typed := by
  cases s with
  | definition id type span =>
    obtain ⟨hid, htype⟩ := typed_definition_iff.mp h
    simp only [Stmt.setValue?] at hs
    split at hs
    · obtain ⟨-, rfl⟩ := Prod.mk.inj (Option.some.inj hs)
      exact h
    · next owned howned =>
      obtain ⟨-, rfl⟩ := Prod.mk.inj (Option.some.inj hs)
      refine typed_definition_iff.mpr ⟨hid, typed_withConstraint htype ?_⟩
      exact typed_add ((typed_slot_iff.mp htype).2 owned howned) hv
  | _ => simp [Stmt.setValue?] at hs

end Part

/-! ## Editing runs -/

/-- The parts of the tree that an editor can come to have in hand. An operation that fails
is one of the steps, with the state that it leaves behind. -/
inductive Reachable : Part → Prop where
  -- fresh slots, nodes and statements
  | emptySlot (t : Ty) : Reachable (.slot (.ofType t))
  | literalSlot (v : Literal) : Reachable (.slot (.ofLiteral v))
  | restField (t : Ty) : Reachable (.variadic (.ofType t))
  | literal (v : Literal) (span : Span) : Reachable (.expr (.ofLiteral v span))
  | name (id : String) (span : Span) : Reachable (.expr (.ofName id span))
  | typeExpr (t : Ty) (span : Span) : Reachable (.expr (.type t span))
  | emptyCall (span : Span) : Reachable (.expr (.emptyCall span))
  | emptyPrint (span : Span) : Reachable (.expr (.emptyPrint span))
  | callOf {func e : Expr} {span : Span} (called : Reachable (.expr func))
      (made : Expr.callOf func span = .ok e) : Reachable (.expr e)
  | keywordOf {arg : String} {value e : Expr} {span : Span} (passed : Reachable (.expr value))
      (made : Expr.keywordOf arg value span = .ok e) : Reachable (.expr e)
  | exprStmt {value : Expr} {s : Stmt} {span : Span} (stands : Reachable (.expr value))
      (made : Stmt.ofExpr value span = .ok s) : Reachable (.stmt s)
  | declare (id : String) (span : Span) : Reachable (.stmt (.declare id span))
  | define (id : String) (span : Span) : Reachable (.stmt (.define id span))
  | block {body : List Stmt} {span : Span} (each : ∀ s ∈ body, Reachable (.stmt s)) :
      Reachable (.stmt (.block ⟨body, span⟩))
  -- reaching into a part
  | occupant {s : Slot} {e : Expr} (part : Reachable (.slot s)) (holds : s.expr? = some e) :
      Reachable (.expr e)
  | owned {s owned : Slot} (part : Reachable (.slot s)) (owns : s.constraint = some owned) :
      Reachable (.slot owned)
  | item {v : Variadic} {s : Slot} (part : Reachable (.variadic v)) (mem : s ∈ v.slots) :
      Reachable (.slot s)
  | field {e : Expr} {name : String} {f : Field} (part : Reachable (.expr e))
      (has : e.field? name = some f) : Reachable f.part
  | stmtField {s : Stmt} {name : String} {f : Field} (part : Reachable (.stmt s))
      (has : s.field? name = some f) : Reachable f.part
  | statement {b : Block} {s : Stmt} (part : Reachable (.stmt (.block b))) (mem : s ∈ b.body) :
      Reachable (.stmt s)
  -- editing a slot
  | add {s : Slot} {e : Expr} (part : Reachable (.slot s)) (offered : Reachable (.expr e)) :
      Reachable (.slot (s.add e).2)
  | remove {s : Slot} (part : Reachable (.slot s)) : Reachable (.slot s.remove.2)
  | replace {s : Slot} {e : Expr} (part : Reachable (.slot s)) (offered : Reachable (.expr e)) :
      Reachable (.slot (s.replace e).2)
  | setLiteral {s : Slot} (v : Literal) (part : Reachable (.slot s)) :
      Reachable (.slot (s.setLiteral v).2)
  | constrain {s : Slot} (t : Ty) (part : Reachable (.slot s)) :
      Reachable (.slot (s.constrain t).2)
  | setConstraint {s owned : Slot} (part : Reachable (.slot s))
      (offered : Reachable (.slot owned)) : Reachable (.slot (s.setConstraint owned).2)
  | editConstraint {α : Type} {s s' : Slot} {edit : Slot → α × Slot} {answer : α}
      (part : Reachable (.slot s))
      (edited : ∀ owned, s.constraint = some owned → Reachable (.slot (edit owned).2))
      (done : s.editConstraint edit = some (answer, s')) : Reachable (.slot s')
  -- editing a rest field
  | push {v : Variadic} {e : Expr} (part : Reachable (.variadic v))
      (offered : Reachable (.expr e)) : Reachable (.variadic (v.push e).2)
  | removeAt {v : Variadic} (index : Nat) (part : Reachable (.variadic v)) :
      Reachable (.variadic (v.remove index).2)
  | editAt {α : Type} {v v' : Variadic} {index : Nat} {edit : Slot → α × Slot} {answer : α}
      (part : Reachable (.variadic v))
      (edited : ∀ s, v.get? index = some s → Reachable (.slot (edit s).2))
      (done : v.editAt index edit = some (answer, v')) : Reachable (.variadic v')
  -- editing an expression
  | setField {e : Expr} {f : Field} (name : String) (part : Reachable (.expr e))
      (offered : Reachable f.part) : Reachable (.expr (e.setField name f))
  | addToField {e x : Expr} (name : String) (part : Reachable (.expr e))
      (offered : Reachable (.expr x)) : Reachable (.expr (e.addToField name x).2)
  | addArgument {e e' argument : Expr} {outcome : Except Fault Unit}
      (part : Reachable (.expr e)) (offered : Reachable (.expr argument))
      (done : e.addArgument? argument = some (outcome, e')) : Reachable (.expr e')
  | addKeyword {e e' argument : Expr} {keyword : String} {outcome : Except Fault Unit}
      (part : Reachable (.expr e)) (offered : Reachable (.expr argument))
      (done : e.addKeyword? keyword argument = some (outcome, e')) : Reachable (.expr e')
  | markInvoked {e : Expr} (part : Reachable (.expr e)) : Reachable (.expr e.markInvoked)
  -- editing a statement
  | setStmtField {s : Stmt} {f : Field} (name : String) (part : Reachable (.stmt s))
      (offered : Reachable f.part) : Reachable (.stmt (s.setField name f))
  | addToStmtField {s : Stmt} {e : Expr} (name : String) (part : Reachable (.stmt s))
      (offered : Reachable (.expr e)) : Reachable (.stmt (s.addToField name e).2)
  | setType {s s' : Stmt} {t : Ty} {span : Span} {outcome : Except Fault (Option Expr)}
      (part : Reachable (.stmt s)) (done : s.setType? t span = some (outcome, s')) :
      Reachable (.stmt s')
  | setValue {s s' : Stmt} {value : Expr} {outcome : Except Fault Unit}
      (part : Reachable (.stmt s)) (offered : Reachable (.expr value))
      (done : s.setValue? value = some (outcome, s')) : Reachable (.stmt s')

namespace Reachable

open SlotTree.Part

/-- A fresh node holds no expression in any slot. -/
theorem typed_of_empty {e : Expr} (h : ∀ entry ∈ e.fields, ∀ s ∈ entry.2.slots,
    s.expr? = none ∧ s.constraint = none) : (expr e).Typed := by
  rw [typed_expr_iff]
  rintro ⟨name, f⟩ hentry
  cases f with
  | slot s =>
    obtain ⟨hempty, howns⟩ := h _ hentry s List.mem_cons_self
    exact typed_of_expr?_eq_none hempty (by simp [howns])
  | variadic v =>
    refine typed_variadic_iff.mpr fun s hs => ?_
    obtain ⟨hempty, howns⟩ := h _ hentry s hs
    exact typed_of_expr?_eq_none hempty (by simp [howns])

/-- Every slot within a part that editing leads to fits what it holds. -/
theorem typed {p : Part} (h : Reachable p) : p.Typed := by
  induction h with
  | emptySlot t => exact typed_ofType t
  | literalSlot v => exact typed_ofLiteral v
  | restField t => exact typed_variadic_iff.mpr (by simp [Variadic.ofType])
  | literal v span => exact typed_of_empty (by simp [Expr.ofLiteral, Expr.fields, Field.slots,
      Slot.ofLiteral, Slot.expr?])
  | name id span => exact typed_of_empty (by simp [Expr.ofName, Expr.fields, Field.slots,
      Slot.ofLiteral, Slot.expr?])
  | typeExpr t span => exact typed_of_empty (by simp [Expr.fields])
  | emptyCall span => exact typed_of_empty (by simp [Expr.emptyCall, Expr.fields, Field.slots,
      Variadic.ofType, Slot.object, Slot.ofType, Slot.expr?])
  | emptyPrint span => exact typed_of_empty (by simp [Expr.emptyPrint, Expr.fields, Field.slots,
      Variadic.ofType, Slot.object, Slot.ofType, Slot.expr?])
  | callOf _ made ih => exact typed_callOf ih made
  | keywordOf _ made ih => exact typed_keywordOf ih made
  | exprStmt _ made ih => exact typed_ofExpr ih made
  | declare id span =>
    exact typed_declaration_iff.mpr ⟨typed_ofLiteral _, typed_objectTypeSlot⟩
  | define id span =>
    exact typed_definition_iff.mpr ⟨typed_ofLiteral _,
      typed_withConstraint typed_objectTypeSlot (typed_ofType _)⟩
  | block _ ih => exact typed_block_iff.mpr ih
  | occupant _ holds ih => exact ((typed_slot_iff.mp ih).1 _ holds).2
  | owned _ owns ih => exact (typed_slot_iff.mp ih).2 _ owns
  | item _ mem ih => exact typed_variadic_iff.mp ih _ mem
  | field _ has ih => exact typed_field? ih has
  | stmtField _ has ih => exact typed_stmtField? ih has
  | statement _ mem ih => exact typed_block_iff.mp ih _ mem
  | add _ _ ih₁ ih₂ => exact typed_add ih₁ ih₂
  | remove _ ih => exact typed_remove ih
  | replace _ _ ih₁ ih₂ => exact typed_replace ih₁ ih₂
  | setLiteral v _ ih => exact typed_setLiteral ih
  | constrain t _ ih => exact typed_constrain ih
  | setConstraint _ _ ih₁ ih₂ => exact typed_setConstraint ih₁ ih₂
  | editConstraint _ _ done ih₁ ih₂ => exact typed_editConstraint ih₁ ih₂ done
  | push _ _ ih₁ ih₂ => exact typed_push ih₁ ih₂
  | removeAt index _ ih => exact typed_removeAt ih
  | editAt _ _ done ih₁ ih₂ => exact typed_editAt ih₁ ih₂ done
  | setField name _ _ ih₁ ih₂ => exact typed_setField ih₁ ih₂
  | addToField name _ _ ih₁ ih₂ => exact typed_addToField ih₁ ih₂
  | addArgument _ _ done ih₁ ih₂ => exact typed_addArgument? ih₁ ih₂ done
  | addKeyword _ _ done ih₁ ih₂ => exact typed_addKeyword? ih₁ ih₂ done
  | markInvoked _ ih => exact typed_markInvoked ih
  | setStmtField name _ _ ih₁ ih₂ => exact typed_stmtSetField ih₁ ih₂
  | addToStmtField name _ _ ih₁ ih₂ => exact typed_stmtAddToField ih₁ ih₂
  | setType _ done ih => exact typed_setType? ih done
  | setValue _ _ done ih₁ ih₂ => exact typed_setValue? ih₁ ih₂ done

/-- **Slots stay well typed over whole editing runs.**  Whatever an editor does to slots,
rest fields, nodes and statements, in whatever order and with whatever success, an
expression in a slot fits the type of the slot, at any depth and also in the slots that
other slots own. -/
theorem expr_fits_slot {p : Part} (h : Reachable p) {s : Slot} (within : Within s p) {e : Expr}
    (holds : s.expr? = some e) : e.valueType.fits s.type = true :=
  h.typed s within e holds

/-- A definition that took a whole number, gave it up when its declared type became `str`,
and then took a text. -/
def redefined : Stmt :=
  .definition (.ofLiteral (.str "x"))
    { type := .plain .type
      content := .expr (.type (.plain .str) .detached)
      constraint := some ⟨.plain .str, .expr (.ofLiteral (.str "a") .detached), none⟩ }
    .detached

theorem reachable_redefined : Reachable (.stmt redefined) := by
  have fresh : Reachable (.stmt (.define "x" .detached)) := .define "x" .detached
  have filled := fresh.setValue (.literal (.int 3) .detached) rfl
  have retyped := filled.setType (rfl : _ = (Stmt.setType? _ (.plain .str) .detached)).symm
  exact retyped.setValue (.literal (.str "a") .detached) rfl

/-- The slot that the type slot of `redefined` owns holds a text and has the type of
texts. -/
theorem expr_fits_slot_redefined :
    Reachable (.stmt redefined) ∧
      Within ⟨.plain .str, .expr (.ofLiteral (.str "a") .detached), none⟩ (.stmt redefined) ∧
      (Expr.ofLiteral (.str "a") .detached).valueType.fits (.plain .str) = true := by
  have within : Within ⟨.plain .str, .expr (.ofLiteral (.str "a") .detached), none⟩
      (.stmt redefined) :=
    .stmtField (List.mem_cons_of_mem _ (List.mem_cons_of_mem _ List.mem_cons_self)) .self
  exact ⟨reachable_redefined, within, expr_fits_slot reachable_redefined within rfl⟩

end Reachable
end SlotTree

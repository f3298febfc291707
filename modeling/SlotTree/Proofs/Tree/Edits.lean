import SlotTree.Proofs.Tree.Typed

/-!
# What a refused edit leaves behind

An edit that is refused should change nothing.  Most edits look before they act, and for
them this is so in every state.  Two edits act first: `replace` takes the old expression
out before it offers the new one, and so does the change of a declared type.

For `replace` a test in front is meant to prevent the loss, and it does wherever the slot
is no literal one.  A literal slot passes the test and then refuses every expression, so
whatever expression it held is lost.  That a literal slot holds an expression at all takes
a detour: the expression came in under another type, and the slot was re-typed around it.
The change of a declared type has no test in front.  It is refused where the type slot was
re-typed so that it takes no type any more, and whatever expression stands there by then is
lost.

Edits are data here (`Slot.Edit`, `Stmt.Edit`), so that one statement speaks of all of
them.  `Loses` singles out the edits that lose an expression when they are refused, and
`refused_changes_nothing_iff` says that a refused edit changes nothing exactly if it is not
one of these.
-/

namespace SlotTree

/-! ## Edits of a slot -/

namespace Slot

/-- An edit of a slot. -/
inductive Edit where
  | add (e : Expr)
  | remove
  | replace (e : Expr)
  | setLiteral (v : Literal)
  | constrain (t : Ty)
  | setConstraint (owned : Slot)
  /-- An edit of the slot that the slot owns. -/
  | owned (edit : Edit)

namespace Edit

/-- Carries out an edit.  Where no slot is owned, there is nothing to be edited. -/
def apply : Edit → Slot → Edited Slot (Option Expr)
  | add e, s => ((s.add e).1.map fun _ => none, (s.add e).2)
  | remove, s => (.ok s.remove.1, s.remove.2)
  | replace e, s => s.replace e
  | setLiteral v, s => ((s.setLiteral v).1.map fun _ => none, (s.setLiteral v).2)
  | constrain t, s => (.ok (s.constrain t).1, (s.constrain t).2)
  | setConstraint o, s => s.setConstraint o
  | owned edit, s => (s.editConstraint edit.apply).getD (.ok none, s)

/-- The edit of an owned slot, where there is one. -/
theorem apply_owned {s o : Slot} (h : s.constraint = some o) (edit : Edit) :
    (owned edit).apply s = ((edit.apply o).1, { s with constraint := some (edit.apply o).2 }) := by
  simp [apply, editConstraint, h]

/-- The edit of an owned slot, where there is none. -/
theorem apply_owned_of_none {s : Slot} (h : s.constraint = none) (edit : Edit) :
    (owned edit).apply s = (.ok none, s) := by
  simp [apply, editConstraint, h]

/-- The edit takes an expression out of a slot and is then refused. -/
def Loses : Edit → Slot → Prop
  | replace _, s => s.isLiteralSlot = true ∧ s.expr?.isSome = true
  | owned edit, s => ∃ o, s.constraint = some o ∧ edit.Loses o
  | _, _ => False

end Edit

/-! ## What the operations leave -/

section Leaves

variable {s o : Slot} {e : Expr} {t : Ty}

@[simp] theorem type_remove : s.remove.2.type = s.type := by
  unfold remove
  split <;> rfl

@[simp] theorem constraint_remove : s.remove.2.constraint = s.constraint := by
  unfold remove
  split <;> rfl

@[simp] theorem literal?_remove : s.remove.2.literal? = s.literal? := by
  obtain ⟨type, content, constraint⟩ := s
  cases content <;> rfl

@[simp] theorem expr?_remove : s.remove.2.expr? = none := by
  obtain ⟨type, content, constraint⟩ := s
  cases content <;> rfl

@[simp] theorem type_constrain : (s.constrain t).2.type = t := by
  unfold constrain
  split
  · simp only
    split
    · rfl
    · exact type_remove
  · rfl

@[simp] theorem constraint_constrain : (s.constrain t).2.constraint = s.constraint := by
  unfold constrain
  split
  · simp only
    split
    · rfl
    · exact constraint_remove
  · rfl

@[simp] theorem literal?_constrain : (s.constrain t).2.literal? = s.literal? := by
  obtain ⟨type, content, constraint⟩ := s
  cases content with
  | empty => rfl
  | literal v => rfl
  | expr e =>
    simp only [constrain]
    split <;> rfl

/-- A slot that is re-typed keeps the expression that fits. -/
@[simp] theorem expr?_constrain :
    (s.constrain t).2.expr? = s.expr?.filter fun e => e.valueType.fits t := by
  obtain ⟨type, content, constraint⟩ := s
  cases content with
  | empty => rfl
  | literal v => rfl
  | expr e =>
    by_cases hfits : e.valueType.fits t = true
    · simp [constrain, accepts, expr?, Option.filter, hfits]
    · simp [constrain, accepts, expr?, Option.filter, hfits, remove]

@[simp] theorem type_applyConstraint : s.applyConstraint.2.type = s.type := by
  unfold applyConstraint
  split <;> rfl

@[simp] theorem expr?_applyConstraint : s.applyConstraint.2.expr? = s.expr? := by
  unfold applyConstraint
  split <;> rfl

theorem applyConstraint_of_type (howns : s.constraint = some o) (hholds : s.expr? = some e)
    (htype : e.asType? = some t) :
    s.applyConstraint.2 = { s with constraint := some (o.constrain t).2 } := by
  simp [applyConstraint, howns, hholds, htype]

/-- Without a type, or without a slot that it could re-type, nothing happens. -/
theorem applyConstraint_eq_self
    (h : ∀ o e t, s.constraint = some o → s.expr? = some e → e.asType? ≠ some t) :
    s.applyConstraint.2 = s := by
  unfold applyConstraint
  split
  · next t o htype howns =>
    obtain ⟨e, hholds, htype⟩ := Option.bind_eq_some_iff.mp htype
    exact absurd htype (h o e t howns hholds)
  · rfl

end Leaves

/-! ## Accepted edits of a slot -/

section Accepted

variable {s o : Slot} {e : Expr}

/-- What an expression has met when it was accepted, and what it leaves. -/
theorem add_ok {u : Unit} (h : (s.add e).1 = .ok u) :
    s.isLiteralSlot = false ∧ s.accepts e = true ∧
      (s.add e).2 = { s with content := .expr e }.applyConstraint.2 := by
  simp only [add, place] at h ⊢
  split at h
  · cases h
  split at h
  · cases h
  split at h
  · cases h
  · next hliteral hoccupied haccepts => simp_all

theorem replace_ok {previous : Option Expr} (h : (s.replace e).1 = .ok previous) :
    (s.remove.2.add e).1 = .ok () ∧ (s.replace e).2 = (s.remove.2.add e).2 := by
  unfold replace at h ⊢
  split at h
  · cases h
  · next haccepted =>
    rw [if_neg haccepted]
    cases hadd : (s.remove.2.add e).1 with
    | error f => simp [hadd, Except.map] at h
    | ok u => exact ⟨rfl, rfl⟩

theorem setLiteral_ok {v : Literal} {u : Unit} (h : (s.setLiteral v).1 = .ok u) :
    s.type.head = v.slotClass ∧ (s.setLiteral v).2 = { s with content := .literal v } := by
  unfold setLiteral at h ⊢
  split at h
  · cases h
  split at h
  · cases h
  · next hslot hclass =>
    have hsame : v.slotClass = s.type.head := by simpa using hclass
    exact ⟨hsame.symm, by rw [if_neg hslot, if_neg hclass]⟩

theorem setConstraint_ok {evicted : Option Expr} (h : (s.setConstraint o).1 = .ok evicted) :
    s.type.head = .type ∧
      (s.setConstraint o).2 = { s with constraint := some o }.applyConstraint.2 := by
  unfold setConstraint at h ⊢
  split at h
  · cases h
  · next hhead =>
    rw [if_neg hhead]
    exact ⟨by simpa using hhead, rfl⟩

end Accepted

/-! ## Refused edits of a slot -/

variable {s s' : Slot} {e : Expr} {f : Fault}

/-- Taking the expression out changes a slot exactly if it holds one. -/
theorem remove_eq_self_iff : s.remove.2 = s ↔ s.expr? = none := by
  obtain ⟨type, content, constraint⟩ := s
  cases content <;> simp [remove, expr?]

/-- Giving a slot another one to own changes it unless it owned that one. -/
theorem withConstraint_eq_self_iff {o : Slot} :
    { s with constraint := some o } = s ↔ s.constraint = some o := by
  obtain ⟨type, content, constraint⟩ := s
  simp [eq_comm]

theorem error_of_map_error {α β : Type} {outcome : Except Fault α} {g : α → β}
    (h : outcome.map g = .error f) : outcome = .error f := by
  cases outcome with
  | error f' => rw [Except.error.inj h]
  | ok a => cases h

theorem add_error (h : (s.add e).1 = .error f) : (s.add e).2 = s :=
  place_error (Prod.ext (error_of_map_error h) rfl : s.place e = (.error f, (s.add e).2))

theorem setLiteral_error {v : Literal} (h : (s.setLiteral v).1 = .error f) :
    (s.setLiteral v).2 = s := by
  unfold setLiteral at h ⊢
  split at h
  · next hnot => rw [if_pos hnot]
  · next hslot =>
    split at h
    · next hclass => rw [if_neg hslot, if_pos hclass]
    · cases h

theorem setConstraint_error {o : Slot} (h : (s.setConstraint o).1 = .error f) :
    (s.setConstraint o).2 = s := by
  unfold setConstraint at h ⊢
  split at h
  · next hhead => rw [if_pos hhead]
  · cases h

/-- An expression is refused for one of three reasons. -/
theorem reason_of_add_error (h : (s.add e).1 = .error f) :
    s.isLiteralSlot = true ∨ s.isOccupied = true ∨ s.accepts e = false := by
  replace h : (s.place e).1 = .error f := error_of_map_error h
  unfold place at h
  split at h
  · next hliteral => exact Or.inl hliteral
  split at h
  · next hoccupied => exact Or.inr (Or.inl hoccupied)
  split at h
  · next hmismatch => exact Or.inr (Or.inr (by simpa using hmismatch))
  · cases h

theorem isOccupied_remove (h : s.expr?.isSome = true) : s.remove.2.isOccupied = false := by
  obtain ⟨type, content, constraint⟩ := s
  cases content <;> simp_all [remove, expr?, isOccupied]

/-- A refused replacement leaves a literal slot without its expression, and every other
slot as it was. -/
theorem replace_error (h : (s.replace e).1 = .error f) :
    (s.replace e).2 = if s.isLiteralSlot then s.remove.2 else s := by
  by_cases hmismatch : (!s.isLiteralSlot && !s.accepts e) = true
  · have hliteral : s.isLiteralSlot = false := by
      simp only [Bool.and_eq_true, Bool.not_eq_true'] at hmismatch
      exact hmismatch.1
    rw [replace, if_pos hmismatch, if_neg (by simp [hliteral])]
  · rw [replace, if_neg hmismatch] at h ⊢
    have hrefused : (s.remove.2.add e).1 = .error f := error_of_map_error h
    show (s.remove.2.add e).2 = _
    rw [add_error hrefused]
    split
    · rfl
    · next hliteral =>
      -- the new expression fits, so something that `remove` leaves must have been in its way
      rw [remove_eq_self_iff, ← Option.not_isSome_iff_eq_none]
      intro hholds
      have hnot : s.remove.2.isLiteralSlot = false := by simpa [isLiteralSlot] using hliteral
      have haccepts : s.remove.2.accepts e = true := by
        simpa [accepts, hliteral] using hmismatch
      rcases reason_of_add_error hrefused with hreason | hreason | hreason
      · simp [hnot] at hreason
      · simp [isOccupied_remove hholds] at hreason
      · simp [haccepts] at hreason

/-- What taking an expression out and adding one keep, a replacement keeps, also where it is
refused. -/
theorem property_replace {P : Slot → Prop} (h : P s) (hremove : P s → P s.remove.2)
    (hadd : P s.remove.2 → P (s.remove.2.add e).2) : P (s.replace e).2 := by
  cases hok : (s.replace e).1 with
  | error f =>
    rw [replace_error hok]
    split
    · exact hremove h
    · exact h
  | ok previous =>
    rw [(replace_ok hok).2]
    exact hadd (hremove h)

/-- A refused edit leaves the slot as it was, unless it loses an expression. -/
theorem Edit.apply_error_iff {edit : Edit} (h : (edit.apply s).1 = .error f) :
    (edit.apply s).2 = s ↔ ¬ edit.Loses s := by
  induction edit generalizing s with
  | add e => simpa [apply, Loses] using add_error (error_of_map_error h)
  | remove => cases h
  | replace e =>
    show (s.replace e).2 = s ↔ _
    rw [replace_error h]
    split
    · next hliteral => simp [remove_eq_self_iff, Loses, hliteral]
    · next hliteral => simp [Loses, hliteral]
  | setLiteral v => simpa [apply, Loses] using setLiteral_error (error_of_map_error h)
  | constrain t => cases h
  | setConstraint o => simpa [apply, Loses] using setConstraint_error h
  | owned edit ih =>
    cases howned : s.constraint with
    | none =>
      rw [apply_owned_of_none howned] at h
      cases h
    | some o =>
      rw [apply_owned howned] at h ⊢
      have hloses : (owned edit).Loses s ↔ edit.Loses o := by simp [Loses, howned]
      rw [hloses, ← ih h, withConstraint_eq_self_iff, howned, Option.some.injEq, eq_comm]

end Slot

/-! ## Edits of a statement -/

namespace Stmt

/-- An edit of a statement. -/
inductive Edit where
  | setType (t : Ty) (span : Span)
  | setValue (value : Expr)
  | addToField (name : String) (e : Expr)
  /-- An edit of the slot that is handed out for a field. -/
  | field (name : String) (edit : Slot.Edit)

namespace Edit

/-- Carries out an edit, if the statement has what is to be edited. -/
def perform? : Edit → Stmt → Option (Edited Stmt (Option Expr))
  | setType t span, s => s.setType? t span
  | setValue value, s => (s.setValue? value).map fun r => (r.1.map fun _ => none, r.2)
  | addToField name e, s =>
    some ((s.addToField name e).1.map fun _ => none, (s.addToField name e).2)
  | field name edit, s =>
    match s.field? name with
    | some (.slot x) => some ((edit.apply x).1, s.setField name (.slot (edit.apply x).2))
    | _ => none

/-- The edit takes an expression out of a slot and is then refused. -/
def Loses : Edit → Stmt → Prop
  | setType _ _, s => ∃ x, s.field? "type" = some (.slot x) ∧ x.expr?.isSome = true
  | field name edit, s => ∃ x, s.field? name = some (.slot x) ∧ edit.Loses x
  | _, _ => False

end Edit

/-! ## Refused edits of a statement -/

variable {s : Stmt} {f : Fault}

/-- The fields of a statement are slots. -/
theorem slot_of_field? {name : String} {g : Field} (h : s.field? name = some g) :
    ∃ x, g = .slot x ∧
      ((name = "value" ∧ ∃ span, s = .expression x span) ∨
        (name = "id" ∧ ∃ type span, s = .declaration x type span ∨ s = .definition x type span) ∨
        (name = "type" ∧ ∃ id span, s = .declaration id x span ∨ s = .definition id x span) ∨
        (name = "value" ∧
          ∃ id type span, s = .definition id type span ∧ type.constraint = some x)) := by
  cases s with
  | block b => simp [field?, fields, Fields.get?] at h
  | expression value span =>
    simp only [field?, fields, Fields.get?, beq_iff_eq] at h
    split at h
    · next hname => exact ⟨value, (Option.some.inj h).symm, by simp [← hname]⟩
    · cases h
  | declaration id type span =>
    simp only [field?, fields, Fields.get?, beq_iff_eq] at h
    split at h
    · next hname => exact ⟨id, (Option.some.inj h).symm, by simp [← hname]⟩
    split at h
    · next hname => exact ⟨type, (Option.some.inj h).symm, by simp [← hname]⟩
    · cases h
  | definition id type span =>
    simp only [field?, fields, Fields.get?, beq_iff_eq] at h
    split at h
    · next hname => exact ⟨id, (Option.some.inj h).symm, by simp [← hname]⟩
    split at h
    · next hname => exact ⟨type, (Option.some.inj h).symm, by simp [← hname]⟩
    · -- the value is a field only as long as the type slot owns it
      cases howned : type.constraint with
      | none => simp [howned, Fields.get?] at h
      | some value =>
        simp only [howned, Fields.get?, beq_iff_eq] at h
        split at h
        · next hname =>
          exact ⟨value, (Option.some.inj h).symm,
            Or.inr (Or.inr (Or.inr ⟨hname.symm, id, type, span, rfl, howned⟩))⟩
        · cases h

/-- Writing a slot back changes the statement exactly if the slot was changed. -/
theorem setField_eq_self_iff {name : String} {x y : Slot} (h : s.field? name = some (.slot x)) :
    s.setField name (.slot y) = s ↔ y = x := by
  obtain ⟨x', hx, hcases⟩ := slot_of_field? h
  obtain rfl := Field.slot.inj hx
  rcases hcases with ⟨rfl, span, rfl⟩ | ⟨rfl, type, span, rfl | rfl⟩ |
    ⟨rfl, id, span, rfl | rfl⟩ | ⟨rfl, id, type, span, rfl, howned⟩
  case inr.inr.inr => simp [setField, Slot.withConstraint_eq_self_iff, howned, eq_comm (a := x)]
  all_goals simp [setField]

theorem addToField_error {name : String} {e : Expr} (h : (s.addToField name e).1 = .error f) :
    (s.addToField name e).2 = s := by
  cases hfield : s.field? name with
  | none => simp [addToField, hfield]
  | some g =>
    obtain ⟨x, rfl, -⟩ := slot_of_field? hfield
    simp only [addToField, hfield, Field.add] at h ⊢
    exact (setField_eq_self_iff hfield).mpr (Slot.add_error h)

theorem setValue?_of_owned {id type x : Slot} {span : Span} (h : type.constraint = some x)
    (value : Expr) : (definition id type span).setValue? value =
      some ((x.add value).1,
        definition id { type with constraint := some (x.add value).2 } span) := by
  simp [setValue?, h]

theorem setValue?_of_none {id type : Slot} {span : Span} (h : type.constraint = none)
    (value : Expr) : (definition id type span).setValue? value =
      some (.error (.detached (.unknownField "VariableDefinition" "value")),
        definition id type span) := by
  simp [setValue?, h, kindName]

theorem setValue?_error {value : Expr} {r : Edited Stmt Unit} (hr : s.setValue? value = some r)
    (h : r.1 = .error f) : r.2 = s := by
  cases s with
  | definition id type span =>
    cases howned : type.constraint with
    | none =>
      rw [setValue?_of_none howned] at hr
      obtain rfl := Option.some.inj hr
      rfl
    | some x =>
      rw [setValue?_of_owned howned] at hr
      obtain rfl := Option.some.inj hr
      have hsame : (x.add value).2 = x := Slot.add_error h
      simpa [hsame, Slot.withConstraint_eq_self_iff] using howned
  | _ => simp [setValue?] at hr

theorem setType?_declaration (id x : Slot) (here : Span) (t : Ty) (span : Span) :
    (declaration id x here).setType? t span =
      some ((retype x t span).1.map fun _ => none, declaration id (retype x t span).2 here) := rfl

theorem setType?_definition (id x : Slot) (here : Span) (t : Ty) (span : Span) :
    (definition id x here).setType? t span =
      some ((retype x t span).1, definition id (retype x t span).2 here) := rfl

/-- A refused type leaves the type slot without what it held. -/
theorem retype_error {x : Slot} {t : Ty} {span : Span} (h : (retype x t span).1 = .error f) :
    (retype x t span).2 = x.remove.2 :=
  Slot.place_error (Prod.ext h rfl : retype x t span = (.error f, (retype x t span).2))

theorem setType?_error_iff {t : Ty} {span : Span} {r : Edited Stmt (Option Expr)}
    (hr : s.setType? t span = some r) (h : r.1 = .error f) :
    r.2 = s ↔ ¬ (Edit.setType t span).Loses s := by
  cases s with
  | declaration id x here =>
    rw [setType?_declaration] at hr
    obtain rfl := Option.some.inj hr
    have hslot := retype_error (Slot.error_of_map_error h)
    simp [hslot, Slot.remove_eq_self_iff, Edit.Loses, field?, fields, Fields.get?]
  | definition id x here =>
    rw [setType?_definition] at hr
    obtain rfl := Option.some.inj hr
    have hslot := retype_error h
    simp [hslot, Slot.remove_eq_self_iff, Edit.Loses, field?, fields, Fields.get?]
  | _ => simp [setType?] at hr

/-- A refused edit leaves the statement as it was, unless it loses an expression. -/
theorem Edit.perform?_error_iff {edit : Edit} {r : Edited Stmt (Option Expr)}
    (hr : edit.perform? s = some r) (h : r.1 = .error f) : r.2 = s ↔ ¬ edit.Loses s := by
  cases edit with
  | setType t span => exact setType?_error_iff hr h
  | setValue value =>
    obtain ⟨r', hr', rfl⟩ := Option.map_eq_some_iff.mp hr
    simpa [Loses] using setValue?_error hr' (Slot.error_of_map_error h)
  | addToField name e =>
    obtain rfl := Option.some.inj hr
    simpa [Loses] using addToField_error (Slot.error_of_map_error h)
  | field name edit =>
    simp only [perform?] at hr
    split at hr
    · next x hfield =>
      obtain rfl := Option.some.inj hr
      have hloses : (field name edit).Loses s ↔ edit.Loses x := by simp [Loses, hfield]
      rw [hloses, ← Slot.Edit.apply_error_iff h]
      exact setField_eq_self_iff hfield
    · cases hr

end Stmt

/-- **A refused edit changes nothing, unless it is one that loses an expression.**  The
edits that lose one are a replacement in a literal slot that holds an expression, and a
change of the declared type where the type slot holds an expression; all others leave the
slot or the statement exactly as it was. -/
theorem refused_changes_nothing_iff (f : Fault) :
    (∀ (edit : Slot.Edit) (s : Slot), (edit.apply s).1 = .error f →
      ((edit.apply s).2 = s ↔ ¬ edit.Loses s)) ∧
    ∀ (edit : Stmt.Edit) (s : Stmt) (r : Edited Stmt (Option Expr)),
      edit.perform? s = some r → r.1 = .error f → (r.2 = s ↔ ¬ edit.Loses s) :=
  ⟨fun _ _ h => Slot.Edit.apply_error_iff h, fun _ _ _ hr h => Stmt.Edit.perform?_error_iff hr h⟩

/-- A slot for whole numbers that holds one. -/
def numberSlot : Slot := ⟨.plain .int, .expr (.ofLiteral (.int 1) .detached), none⟩

/-- A slot for numbers refuses a text in place of its number, and keeps the number. -/
theorem refused_text_changes_nothing :
    ((Slot.Edit.replace (.ofLiteral (.str "a") .detached)).apply numberSlot).1 =
        .error ⟨.typeMismatch "int" "Literal[str]", .detached⟩ ∧
      ((Slot.Edit.replace (.ofLiteral (.str "a") .detached)).apply numberSlot).2 = numberSlot := by
  have refused : ((Slot.Edit.replace (.ofLiteral (.str "a") .detached)).apply numberSlot).1 =
      .error ⟨.typeMismatch "int" "Literal[str]", .detached⟩ := rfl
  have keeps : ¬ (Slot.Edit.replace (.ofLiteral (.str "a") .detached)).Loses numberSlot :=
    fun loses => Bool.noConfusion loses.1
  exact ⟨refused, ((refused_changes_nothing_iff _).1 _ _ refused).mpr keeps⟩

/-- A slot that took a whole number, and that was then re-typed to the class of literals
to which the number belongs. -/
def numberInLiteralSlot : Slot :=
  ⟨.plain .literalInt, .expr (.ofLiteral (.int 1) .detached), none⟩

theorem reachable_numberInLiteralSlot : Reachable (.slot numberInLiteralSlot) :=
  ((Reachable.emptySlot (.plain .object)).add (.literal (.int 1) .detached)).constrain
    (.plain .literalInt)

/-- A declaration whose type slot was re-typed to take objects, and then took a name. -/
def declarationOfName : Stmt :=
  .declaration (.ofLiteral (.str "x"))
    ⟨.plain .object, .expr (.ofName "y" .detached), none⟩ .detached

theorem reachable_declarationOfName : Reachable (.stmt declarationOfName) := by
  have declared : Reachable (.stmt (.declare "x" .detached)) := .declare "x" .detached
  have typeSlot : Reachable (.slot Stmt.objectTypeSlot) :=
    declared.stmtField
      (rfl : (Stmt.declare "x" .detached).field? "type" = some (.slot Stmt.objectTypeSlot))
  have filled := (typeSlot.constrain (.plain .object)).add (.name "y" .detached)
  exact declared.setStmtField (f := .slot _) "type" filled

/-- **Refused edits can lose an expression.**  A literal slot that holds a number refuses
another one, and is left empty; a declaration whose type slot holds a name refuses a type,
and is left without either. -/
theorem refused_edits_lose_expressions :
    (Reachable (.slot numberInLiteralSlot) ∧
      ((Slot.Edit.replace (.ofLiteral (.int 2) .detached)).apply numberInLiteralSlot).1 =
        .error ⟨.literalSlot "Literal[int]", .detached⟩ ∧
      ((Slot.Edit.replace (.ofLiteral (.int 2) .detached)).apply numberInLiteralSlot).2 ≠
        numberInLiteralSlot) ∧
    (Reachable (.stmt declarationOfName) ∧
      ∃ left, (Stmt.Edit.setType (.plain .int) .detached).perform? declarationOfName =
          some (.error ⟨.typeMismatch "object" "type", .detached⟩, left) ∧
        left ≠ declarationOfName) := by
  refine ⟨⟨reachable_numberInLiteralSlot, rfl, ?_⟩, reachable_declarationOfName, _, rfl, ?_⟩
  · intro h
    cases congrArg Slot.content h
  · intro h
    cases congrArg Slot.content (Stmt.declaration.inj h).2.1

end SlotTree

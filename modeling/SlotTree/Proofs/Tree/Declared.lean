import SlotTree.Proofs.Tree.Edits

/-!
# The declared type governs the value

The value slot of a definition is owned by the type slot.  The declared type can be changed
in many ways: by `setType?`, by adding or replacing a type in the field, by taking the type
out and putting another one in, by re-typing the type slot and back, or by handing it a new
value slot altogether.  Each of them ends in a type that lands in the type slot, or in a
slot that the type slot comes to own, and both re-type the owned slot.

So as long as nobody re-types the value slot itself (`Stmt.Edit.sparesValueType`), it has the
declared type whenever there is one, and what it holds fits that type.  This is a property of
the type slot alone (`Slot.Governs`): every edit keeps it, refused ones included, and a run of
edits keeps it by induction (`Stmt.Governed.run`).

Nothing is asked of the slots that an editor hands over.  They may be filled and typed in any
way, since they are re-typed before they count.
-/

namespace SlotTree
namespace Slot

/-! ## A slot that keeps to a type -/

/-- The slot has the type, and what it holds fits it. -/
structure KeepsTo (t : Ty) (s : Slot) : Prop where
  type : s.type = t
  expr : ∀ e, s.expr? = some e → e.valueType.fits t = true

/-- The edit does not re-type the slot itself. -/
def Edit.keepsType : Edit → Bool
  | constrain _ => false
  | _ => true

section KeepsTo

variable {s : Slot} {t : Ty} {e : Expr}

/-- A slot that is re-typed keeps to its new type, whatever it held. -/
theorem keepsTo_constrain : (s.constrain t).2.KeepsTo t := by
  refine ⟨type_constrain, fun e he => ?_⟩
  rw [expr?_constrain, Option.filter_eq_some_iff] at he
  exact he.2

/-- A slot that has lost its expression, or has none, keeps to its type. -/
theorem keepsTo_of_expr?_eq_none (htype : s.type = t) (hexpr : s.expr? = none) : s.KeepsTo t :=
  ⟨htype, by simp [hexpr]⟩

theorem KeepsTo.remove (h : s.KeepsTo t) : s.remove.2.KeepsTo t :=
  keepsTo_of_expr?_eq_none (by rw [type_remove, h.type]) expr?_remove

theorem KeepsTo.add (h : s.KeepsTo t) : (s.add e).2.KeepsTo t := by
  cases hok : (s.add e).1 with
  | error f => rwa [add_error hok]
  | ok u =>
    obtain ⟨-, haccepts, hleaves⟩ := add_ok hok
    rw [hleaves]
    refine ⟨by rw [type_applyConstraint, h.type], fun e' he' => ?_⟩
    obtain rfl : e = e' := Option.some.inj (by rwa [expr?_applyConstraint] at he')
    rwa [accepts, h.type] at haccepts

theorem KeepsTo.replace (h : s.KeepsTo t) : (s.replace e).2.KeepsTo t :=
  property_replace h KeepsTo.remove KeepsTo.add

theorem KeepsTo.setLiteral (h : s.KeepsTo t) (v : Literal) : (s.setLiteral v).2.KeepsTo t := by
  cases hok : (s.setLiteral v).1 with
  | error f => rwa [setLiteral_error hok]
  | ok u =>
    rw [(setLiteral_ok hok).2]
    exact keepsTo_of_expr?_eq_none h.type rfl

theorem KeepsTo.setConstraint (h : s.KeepsTo t) (o : Slot) : (s.setConstraint o).2.KeepsTo t := by
  cases hok : (s.setConstraint o).1 with
  | error f => rwa [setConstraint_error hok]
  | ok evicted =>
    rw [(setConstraint_ok hok).2]
    refine ⟨by rw [type_applyConstraint, h.type], fun e he => ?_⟩
    rw [expr?_applyConstraint] at he
    exact h.expr e he

/-- An edit that does not re-type the slot leaves it to keep to its type. -/
theorem KeepsTo.apply (h : s.KeepsTo t) {edit : Edit} (hedit : edit.keepsType = true) :
    (edit.apply s).2.KeepsTo t := by
  cases edit with
  | add e => exact h.add
  | remove => exact h.remove
  | replace e => exact h.replace
  | setLiteral v => exact h.setLiteral v
  | constrain t => cases hedit
  | setConstraint o => exact h.setConstraint o
  | owned edit =>
    cases howns : s.constraint with
    | none => rwa [Edit.apply_owned_of_none howns]
    | some o =>
      rw [Edit.apply_owned howns]
      exact ⟨h.type, h.expr⟩

end KeepsTo

/-! ## The slot of a declared type -/

/-- The slot owns a slot, and this one keeps to the type that is held here, if one is. -/
def Governs (s : Slot) : Prop :=
  ∃ o, s.constraint = some o ∧ ∀ t, s.expr?.bind Expr.asType? = some t → o.KeepsTo t

/-- An edit of a type slot that does not re-type the slot which it owns, other than through
the type that it holds. -/
def Edit.sparesOwned : Edit → Bool
  | owned edit => edit.keepsType
  | _ => true

section Governs

variable {s : Slot} {e : Expr}

/-- Without a type there is nothing to keep to. -/
theorem governs_of_expr?_eq_none {o : Slot} (howns : s.constraint = some o)
    (hexpr : s.expr? = none) : s.Governs :=
  ⟨o, howns, by simp [hexpr]⟩

/-- A type that lands in a slot governs from then on. -/
theorem governs_applyConstraint {o : Slot} (howns : s.constraint = some o) :
    s.applyConstraint.2.Governs := by
  by_cases hlands : ∃ e t, s.expr? = some e ∧ e.asType? = some t
  · obtain ⟨e, t, hholds, htype⟩ := hlands
    rw [applyConstraint_of_type howns hholds htype]
    refine ⟨_, rfl, fun t' ht' => ?_⟩
    obtain rfl : t = t' := by
      have hheld : s.expr?.bind Expr.asType? = some t := by simp [hholds, htype]
      exact Option.some.inj (hheld.symm.trans ht')
    exact keepsTo_constrain
  · rw [applyConstraint_eq_self fun _ e t _ hholds htype => hlands ⟨e, t, hholds, htype⟩]
    refine ⟨o, howns, fun t ht => ?_⟩
    obtain ⟨e, hholds, htype⟩ := Option.bind_eq_some_iff.mp ht
    exact absurd ⟨e, t, hholds, htype⟩ hlands

theorem Governs.remove (h : s.Governs) : s.remove.2.Governs := by
  obtain ⟨o, howns, -⟩ := h
  exact governs_of_expr?_eq_none (by rw [constraint_remove, howns]) expr?_remove

theorem Governs.add (h : s.Governs) : (s.add e).2.Governs := by
  cases hok : (s.add e).1 with
  | error f => rwa [add_error hok]
  | ok u =>
    obtain ⟨o, howns, -⟩ := h
    rw [(add_ok hok).2.2]
    exact governs_applyConstraint (s := { s with content := .expr e }) howns

theorem Governs.replace (h : s.Governs) : (s.replace e).2.Governs :=
  property_replace h Governs.remove Governs.add

theorem Governs.setLiteral (h : s.Governs) (v : Literal) : (s.setLiteral v).2.Governs := by
  cases hok : (s.setLiteral v).1 with
  | error f => rwa [setLiteral_error hok]
  | ok u =>
    obtain ⟨o, howns, -⟩ := h
    rw [(setLiteral_ok hok).2]
    exact governs_of_expr?_eq_none howns rfl

/-- Re-typing the slot can only take the type out. -/
theorem Governs.constrain (h : s.Governs) (t : Ty) : (s.constrain t).2.Governs := by
  obtain ⟨o, howns, hkeeps⟩ := h
  refine ⟨o, by rw [constraint_constrain, howns], fun t' ht' => ?_⟩
  obtain ⟨e, hholds, htype⟩ := Option.bind_eq_some_iff.mp ht'
  rw [expr?_constrain, Option.filter_eq_some_iff] at hholds
  exact hkeeps t' (by simp [hholds.1, htype])

theorem Governs.setConstraint (h : s.Governs) (o : Slot) : (s.setConstraint o).2.Governs := by
  cases hok : (s.setConstraint o).1 with
  | error f => rwa [setConstraint_error hok]
  | ok evicted =>
    rw [(setConstraint_ok hok).2]
    exact governs_applyConstraint (s := { s with constraint := some o }) rfl

/-- The owned slot may be edited under the type slot, as long as that does not re-type it. -/
theorem Governs.edit_owned (h : s.Governs) {edit : Edit} (hedit : edit.keepsType = true) :
    ((Edit.owned edit).apply s).2.Governs := by
  obtain ⟨o, howns, hkeeps⟩ := h
  rw [Edit.apply_owned howns]
  exact ⟨_, rfl, fun t ht => (hkeeps t ht).apply hedit⟩

/-- **An edit of the type slot leaves it governing.** -/
theorem Governs.apply (h : s.Governs) {edit : Edit} (hedit : edit.sparesOwned = true) :
    (edit.apply s).2.Governs := by
  cases edit with
  | add e => exact h.add
  | remove => exact h.remove
  | replace e => exact h.replace
  | setLiteral v => exact h.setLiteral v
  | constrain t => exact h.constrain t
  | setConstraint o => exact h.setConstraint o
  | owned edit => exact h.edit_owned hedit

end Governs
end Slot

/-! ## Definitions -/

namespace Stmt

/-- The edit does not re-type the value slot itself, neither as a field nor as what the type
slot owns. -/
def Edit.sparesValueType : Edit → Bool
  | field "type" edit => edit.sparesOwned
  | field "value" edit => edit.keepsType
  | _ => true

/-- The statement after an edit, which stays as it is where the edit does not apply. -/
def edited (s : Stmt) (edit : Edit) : Stmt := ((edit.perform? s).map Prod.snd).getD s

/-- The statement after a run of edits. -/
def run (s : Stmt) (edits : List Edit) : Stmt := edits.foldl edited s

/-- A definition whose type slot governs the value. -/
def Governed (s : Stmt) : Prop := ∃ id type span, s = .definition id type span ∧ type.Governs

theorem governed_define (id : String) (span : Span) : (define id span).Governed := by
  refine ⟨_, _, _, rfl, .object, rfl, fun t ht => ?_⟩
  obtain rfl : Ty.plain .object = t := Option.some.inj ht
  exact Slot.keepsTo_of_expr?_eq_none rfl rfl

/-- Editing the slot of a field, the value slot without re-typing it, leaves the definition
governed. -/
theorem Governed.setField {s : Stmt} (h : s.Governed) {name : String} {x : Slot}
    (hfield : s.field? name = some (.slot x)) {edit : Slot.Edit}
    (hedit : (Edit.field name edit).sparesValueType = true) :
    (s.setField name (.slot (edit.apply x).2)).Governed := by
  obtain ⟨id, type, span, rfl, hgoverns⟩ := h
  obtain ⟨x', hx, hcases⟩ := slot_of_field? hfield
  obtain rfl := Field.slot.inj hx
  rcases hcases with ⟨rfl, here, hs⟩ | ⟨rfl, type', here, hs | hs⟩ |
    ⟨rfl, id', here, hs | hs⟩ | ⟨rfl, id', type', here, hs, howns⟩
  all_goals cases hs
  · exact ⟨_, type, span, rfl, hgoverns⟩
  · exact ⟨id, _, span, rfl, hgoverns.apply hedit⟩
  · have howned := hgoverns.edit_owned hedit
    rw [Slot.Edit.apply_owned howns] at howned
    exact ⟨id, _, span, rfl, howned⟩

/-- Adding an expression re-types no value slot directly. -/
theorem sparesValueType_add (name : String) (e : Expr) :
    (Edit.field name (.add e)).sparesValueType = true := by
  unfold Edit.sparesValueType
  split
  · next heq => cases heq; rfl
  · next heq => cases heq; rfl
  · rfl

/-- **A definition stays governed under every edit that does not re-type its value slot.** -/
theorem Governed.edited {s : Stmt} (h : s.Governed) {edit : Edit}
    (hedit : edit.sparesValueType = true) : (s.edited edit).Governed := by
  cases edit with
  | setType t span =>
    obtain ⟨id, type, here, rfl, hgoverns⟩ := h
    exact ⟨id, _, here, rfl, hgoverns.remove.add⟩
  | setValue value =>
    obtain ⟨id, type, here, rfl, hgoverns⟩ := h
    have howned : ((Slot.Edit.owned (.add value)).apply type).2.Governs := hgoverns.edit_owned rfl
    obtain ⟨o, howns, -⟩ := hgoverns
    rw [Slot.Edit.apply_owned howns] at howned
    refine ⟨id, _, here, ?_, howned⟩
    simp [Stmt.edited, Edit.perform?, setValue?_of_owned howns, Slot.Edit.apply]
  | addToField name e =>
    cases hfield : s.field? name with
    | none => simpa [Stmt.edited, Edit.perform?, addToField, hfield] using h
    | some g =>
      obtain ⟨x, rfl, -⟩ := slot_of_field? hfield
      have hset := h.setField hfield (sparesValueType_add name e)
      simpa [Stmt.edited, Edit.perform?, addToField, hfield, Field.add, Slot.Edit.apply] using hset
  | field name edit =>
    cases hfield : s.field? name with
    | none => simpa [Stmt.edited, Edit.perform?, hfield] using h
    | some g =>
      obtain ⟨x, rfl, -⟩ := slot_of_field? hfield
      simpa [Stmt.edited, Edit.perform?, hfield] using h.setField hfield hedit

/-- A run of edits leaves a definition governed. -/
theorem Governed.run {s : Stmt} (h : s.Governed) {edits : List Edit}
    (hedits : ∀ edit ∈ edits, edit.sparesValueType = true) : (s.run edits).Governed := by
  induction edits generalizing s with
  | nil => exact h
  | cons edit edits ih =>
    exact ih (h.edited (hedits edit List.mem_cons_self))
      fun edit' hedit' => hedits edit' (List.mem_cons_of_mem _ hedit')

/-- **The declared type governs the value.**  After any run of edits that does not re-type
the value slot itself, a definition has a value slot; and if it has a declared type, that is
the type of the value slot, and what the value slot holds fits it. -/
theorem declared_type_governs_value (id : String) (span : Span) (edits : List Edit)
    (hedits : ∀ edit ∈ edits, edit.sparesValueType = true) :
    ∃ value, ((define id span).run edits).valueSlot? = some value ∧
      ∀ t, ((define id span).run edits).declaredType? = some t →
        value.type = t ∧ ∀ e, value.expr? = some e → e.valueType.fits t = true := by
  obtain ⟨name, type, here, hrun, value, howns, hkeeps⟩ := (governed_define id span).run hedits
  rw [hrun]
  exact ⟨value, howns, fun t ht => ⟨(hkeeps t ht).type, (hkeeps t ht).expr⟩⟩

/-- A definition is given a number, its type slot is re-typed and back, gets a value slot
that holds a text, and is then declared to be of type `bool`; a truth value follows. -/
def detour : List Edit :=
  [.setValue (.ofLiteral (.int 3) .detached), .field "type" (.constrain (.plain .object)),
    .field "type" (.constrain (.plain .type)),
    .field "type" (.setConstraint ⟨.plain .str, .expr (.ofLiteral (.str "a") .detached), none⟩),
    .addToField "type" (.type (.plain .bool) .detached),
    .field "value" (.add (.ofLiteral (.bool true) .detached))]

theorem declared_type_governs_value_detour :
    (∀ edit ∈ detour, edit.sparesValueType = true) ∧
      ((define "x" .detached).run detour).declaredType? = some (.plain .bool) ∧
      ∃ value, ((define "x" .detached).run detour).valueSlot? = some value ∧
        value.type = .plain .bool ∧
        value.expr? = some (.ofLiteral (.bool true) .detached) := by
  have spares : ∀ edit ∈ detour, edit.sparesValueType = true := by
    simp [detour, Edit.sparesValueType, Slot.Edit.sparesOwned, Slot.Edit.keepsType]
  obtain ⟨value, hvalue, hgoverns⟩ := declared_type_governs_value "x" .detached detour spares
  refine ⟨spares, rfl, value, hvalue, (hgoverns _ rfl).1, ?_⟩
  obtain rfl := Option.some.inj hvalue
  rfl

end Stmt
end SlotTree

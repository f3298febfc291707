import SlotTree.Proofs.Tree.Edits

/-!
# What a slot may hold and own

Three rules say what goes with the type of a slot.  A raw value stands only in a slot of its
own literal class, a slot of a literal class holds no expression, and only a slot of type
`type` owns another one (`Sound`).  Each rule is enforced at one entrance: by `setLiteral`,
by `place` and by `setConstraint`.

None of them looks at a slot again, and `constrain` changes the type under whatever the slot
holds and owns.  It takes out an expression that does not fit, and nothing else: a raw value
stays under a type that is not its class, an expression stays in a slot that has become a
literal one, and a slot that was a type slot goes on owning its slot
(`improper_slots_reachable`).  A raw value under such a type cannot be got rid of: `remove`
passes it over and `setLiteral` refuses another one.

All other operations keep the rules.  So the rules hold along a run of edits exactly as long
as no slot is re-typed to a type that it does not admit (`proper_along_run_iff`), where
`Admits` reads the three rules off the new type.  A slot is re-typed by `constrain` itself and
by a type that lands in the slot that owns it (`Edit.Retypes`).
-/

namespace SlotTree
namespace Slot

/-! ## The rules -/

/-- What the slot holds and owns goes with its type. -/
structure Sound (s : Slot) : Prop where
  literal : ∀ v, s.literal? = some v → s.type.head = v.slotClass
  expr : s.isLiteralSlot = true → s.expr? = none
  owner : s.constraint.isSome = true → s.type.head = .type

/-- The slot, the slot that it owns, the slot that this one owns, and so on. -/
inductive Chain : Slot → Slot → Prop where
  | self {s : Slot} : Chain s s
  | owned {s o x : Slot} (owns : s.constraint = some o) (further : Chain o x) : Chain s x

/-- The slot keeps the rules, and so do the slots that it owns. -/
def Proper (s : Slot) : Prop := ∀ x, Chain s x → x.Sound

theorem proper_iff {s : Slot} : s.Proper ↔ s.Sound ∧ ∀ o, s.constraint = some o → o.Proper := by
  constructor
  · exact fun h => ⟨h s .self, fun o ho x hx => h x (.owned ho hx)⟩
  · rintro ⟨hsound, howned⟩ x hx
    cases hx with
    | self => exact hsound
    | owned owns further => exact howned _ owns x further

/-- Whether a slot that owns another one keeps the rules depends on the owned slot alone when
that is exchanged. -/
theorem proper_withOwned_iff {s o o' : Slot} (h : s.Proper) (howns : s.constraint = some o) :
    { s with constraint := some o' }.Proper ↔ o'.Proper := by
  obtain ⟨hsound, -⟩ := proper_iff.mp h
  have hslot : { s with constraint := some o' }.Sound :=
    ⟨hsound.literal, hsound.expr, fun _ => hsound.owner (by simp [howns])⟩
  rw [proper_iff]
  refine ⟨fun h' => h'.2 o' rfl, fun ho' => ⟨hslot, fun x hx => ?_⟩⟩
  obtain rfl : o' = x := Option.some.inj hx
  exact ho'

/-- The slot keeps the rules when it is re-typed. -/
structure Admits (s : Slot) (t : Ty) : Prop where
  literal : ∀ v, s.literal? = some v → t.head = v.slotClass
  expr : t.head.isLiteral = true → ∀ e, s.expr? = some e → e.valueType.fits t = false
  owner : s.constraint.isSome = true → t.head = .type

/-! ## Fresh slots -/

theorem proper_ofType (t : Ty) : (ofType t).Proper :=
  proper_iff.mpr ⟨⟨by simp [ofType, literal?], fun _ => rfl, by simp [ofType]⟩, by simp [ofType]⟩

/-- An empty slot that owns nothing admits every type. -/
theorem admits_ofType (t t' : Ty) : (ofType t).Admits t' :=
  ⟨by simp [ofType, literal?], by simp, by simp [ofType]⟩

theorem proper_ofLiteral (v : Literal) : (ofLiteral v).Proper := by
  refine proper_iff.mpr ⟨⟨fun v' hv' => ?_, fun _ => rfl, by simp [ofLiteral]⟩, by simp [ofLiteral]⟩
  obtain rfl : v = v' := by simpa using hv'
  rfl

/-! ## Re-typing -/

section Retyping

variable {s : Slot} {t : Ty}

/-- **Re-typing keeps the rules exactly if the slot admits the new type.** -/
theorem proper_constrain_iff (h : s.Proper) : (s.constrain t).2.Proper ↔ s.Admits t := by
  obtain ⟨-, howned⟩ := proper_iff.mp h
  constructor
  · intro h'
    obtain ⟨hliteral, hexpr, howner⟩ := (proper_iff.mp h').1
    simp only [isLiteralSlot, literal?_constrain, type_constrain, expr?_constrain,
      constraint_constrain] at hliteral hexpr howner
    refine ⟨hliteral, fun ht e he => ?_, howner⟩
    simpa [he, Option.filter] using hexpr ht
  · rintro ⟨hliteral, hexpr, howner⟩
    refine proper_iff.mpr ⟨⟨by simpa using hliteral, fun ht => ?_, by simpa using howner⟩, ?_⟩
    · simp only [isLiteralSlot, type_constrain] at ht
      simpa [Option.filter_eq_none_iff] using fun e he => hexpr ht e he
    · simpa using howned

/-- A type that lands in a slot keeps the rules exactly if the owned slot admits it. -/
theorem proper_applyConstraint_iff (h : s.Proper) :
    s.applyConstraint.2.Proper ↔
      ∀ o e t, s.constraint = some o → s.expr? = some e → e.asType? = some t → o.Admits t := by
  obtain ⟨-, howned⟩ := proper_iff.mp h
  by_cases hlands : ∃ o e t, s.constraint = some o ∧ s.expr? = some e ∧ e.asType? = some t
  · obtain ⟨o, e, t, howns, hholds, htype⟩ := hlands
    rw [applyConstraint_of_type howns hholds htype, proper_withOwned_iff h howns,
      proper_constrain_iff (howned o howns)]
    refine ⟨fun hadmits o' e' t' ho he ht => ?_, fun hadmits => hadmits o e t howns hholds htype⟩
    obtain rfl : o = o' := Option.some.inj (howns.symm.trans ho)
    obtain rfl : e = e' := Option.some.inj (hholds.symm.trans he)
    obtain rfl : t = t' := Option.some.inj (htype.symm.trans ht)
    exact hadmits
  · rw [applyConstraint_eq_self fun o e t ho he ht => hlands ⟨o, e, t, ho, he, ht⟩]
    exact ⟨fun _ o e t ho he ht => absurd ⟨o, e, t, ho, he, ht⟩ hlands, fun _ => h⟩

end Retyping

/-! ## The other operations -/

section Operations

variable {s : Slot} {e : Expr}

theorem proper_remove (h : s.Proper) : s.remove.2.Proper := by
  obtain ⟨hsound, howned⟩ := proper_iff.mp h
  exact proper_iff.mpr ⟨⟨by simpa using hsound.literal, by simp, by simpa using hsound.owner⟩,
    by simpa using howned⟩

theorem proper_setLiteral (h : s.Proper) (v : Literal) : (s.setLiteral v).2.Proper := by
  cases hok : (s.setLiteral v).1 with
  | error f => rwa [setLiteral_error hok]
  | ok u =>
    obtain ⟨hsound, howned⟩ := proper_iff.mp h
    obtain ⟨hclass, hleaves⟩ := setLiteral_ok hok
    rw [hleaves]
    refine proper_iff.mpr ⟨⟨fun v' hv' => ?_, fun _ => rfl, hsound.owner⟩, howned⟩
    obtain rfl : v = v' := Option.some.inj hv'
    exact hclass

/-- An expression that is accepted keeps the rules exactly if it is no type, or the owned
slot admits it. -/
theorem proper_add_iff (h : s.Proper) {u : Unit} (hok : (s.add e).1 = .ok u) :
    (s.add e).2.Proper ↔
      ∀ o t, s.constraint = some o → e.asType? = some t → o.Admits t := by
  obtain ⟨hsound, howned⟩ := proper_iff.mp h
  obtain ⟨hliteral, -, hleaves⟩ := add_ok hok
  have hfilled : { s with content := .expr e }.Proper := by
    refine proper_iff.mpr ⟨⟨by simp [literal?], fun hslot => ?_, hsound.owner⟩, howned⟩
    exact absurd (hliteral.symm.trans hslot) (by decide)
  rw [hleaves, proper_applyConstraint_iff hfilled]
  constructor
  · exact fun hadmits o t ho ht => hadmits o e t ho rfl ht
  · intro hadmits o e' t ho he ht
    obtain rfl : e = e' := Option.some.inj he
    exact hadmits o t ho ht

/-- A slot that a type slot comes to own keeps the rules exactly if it admits the type that
is held there. -/
theorem proper_setConstraint_iff (h : s.Proper) {o : Slot} (ho : o.Proper)
    {evicted : Option Expr} (hok : (s.setConstraint o).1 = .ok evicted) :
    (s.setConstraint o).2.Proper ↔
      ∀ e t, s.expr? = some e → e.asType? = some t → o.Admits t := by
  obtain ⟨hsound, -⟩ := proper_iff.mp h
  obtain ⟨hhead, hleaves⟩ := setConstraint_ok hok
  have howner : { s with constraint := some o }.Proper := by
    refine proper_iff.mpr ⟨⟨hsound.literal, hsound.expr, fun _ => hhead⟩, fun o' ho' => ?_⟩
    obtain rfl : o = o' := Option.some.inj ho'
    exact ho
  rw [hleaves, proper_applyConstraint_iff howner]
  constructor
  · exact fun hadmits e t he ht => hadmits o e t rfl he ht
  · intro hadmits o' e t ho' he ht
    obtain rfl : o = o' := Option.some.inj ho'
    exact hadmits e t he ht

end Operations

/-! ## Edits -/

namespace Edit

/-- The slot that an edit of a slot re-types, and the new type. -/
inductive Retypes : Edit → Slot → Slot → Ty → Prop where
  | constrain {s : Slot} {t : Ty} : Retypes (.constrain t) s s t
  | add {s o : Slot} {e : Expr} {t : Ty} {u : Unit} (accepted : (s.add e).1 = .ok u)
      (owns : s.constraint = some o) (isType : e.asType? = some t) : Retypes (.add e) s o t
  | replace {s o : Slot} {e : Expr} {t : Ty} {previous : Option Expr}
      (accepted : (s.replace e).1 = .ok previous) (owns : s.constraint = some o)
      (isType : e.asType? = some t) : Retypes (.replace e) s o t
  | setConstraint {s o : Slot} {e : Expr} {t : Ty} {evicted : Option Expr}
      (accepted : (s.setConstraint o).1 = .ok evicted) (holds : s.expr? = some e)
      (isType : e.asType? = some t) : Retypes (.setConstraint o) s o t
  | owned {s o x : Slot} {edit : Edit} {t : Ty} (owns : s.constraint = some o)
      (retypes : Retypes edit o x t) : Retypes (.owned edit) s x t

/-- Whatever slot the edit re-types admits its new type. -/
def Harmless (edit : Edit) (s : Slot) : Prop := ∀ x t, edit.Retypes s x t → x.Admits t

/-- The slot that the edit hands over. -/
def offered? : Edit → Option Slot
  | .setConstraint o => some o
  | .owned edit => edit.offered?
  | _ => none

/-- Where the rules are kept, no edit loses an expression. -/
theorem not_loses_of_proper {edit : Edit} {s : Slot} (h : s.Proper) : ¬ edit.Loses s := by
  obtain ⟨hsound, howned⟩ := proper_iff.mp h
  induction edit generalizing s with
  | replace e =>
    rintro ⟨hliteral, hholds⟩
    simp [hsound.expr hliteral] at hholds
  | owned edit ih =>
    rintro ⟨o, howns, hloses⟩
    have ho : o.Proper := howned o howns
    exact ih ho (proper_iff.mp ho).1 (proper_iff.mp ho).2 hloses
  | _ => exact id

/-- A refused edit re-types nothing. -/
theorem not_retypes_of_refused {edit : Edit} {s x : Slot} {t : Ty} {f : Fault}
    (hrefused : (edit.apply s).1 = .error f) : ¬ edit.Retypes s x t := by
  intro hretypes
  induction hretypes with
  | constrain => cases hrefused
  | add accepted => simp [apply, accepted, Except.map] at hrefused
  | replace accepted => simp [apply, accepted] at hrefused
  | setConstraint accepted => simp [apply, accepted] at hrefused
  | owned owns _ ih =>
    rw [apply_owned owns] at hrefused
    exact ih hrefused

theorem proper_apply_iff_of_refused {edit : Edit} {s : Slot} (h : s.Proper) {f : Fault}
    (hrefused : (edit.apply s).1 = .error f) : (edit.apply s).2.Proper ↔ edit.Harmless s := by
  rw [(apply_error_iff hrefused).mpr (not_loses_of_proper h)]
  exact ⟨fun _ x t hretypes => absurd hretypes (not_retypes_of_refused hrefused), fun _ => h⟩

/-- **An edit keeps the rules exactly if it is harmless.** -/
theorem proper_apply_iff {edit : Edit} {s : Slot} (h : s.Proper)
    (hoffered : ∀ o, edit.offered? = some o → o.Proper) :
    (edit.apply s).2.Proper ↔ edit.Harmless s := by
  induction edit generalizing s with
  | add e =>
    cases hok : (s.add e).1 with
    | error f => exact proper_apply_iff_of_refused h (congrArg (Except.map _) hok)
    | ok u =>
      refine (proper_add_iff h hok).trans ⟨fun hadmits x t hretypes => ?_, ?_⟩
      · cases hretypes with
        | add _ owns isType => exact hadmits x t owns isType
      · exact fun hharmless o t ho ht => hharmless o t (.add hok ho ht)
  | remove =>
    refine ⟨fun _ x t hretypes => ?_, fun _ => proper_remove h⟩
    cases hretypes
  | replace e =>
    cases hok : (s.replace e).1 with
    | error f => exact proper_apply_iff_of_refused h hok
    | ok previous =>
      obtain ⟨hadd, hleaves⟩ := replace_ok hok
      show (s.replace e).2.Proper ↔ _
      rw [hleaves, proper_add_iff (proper_remove h) hadd, constraint_remove]
      refine ⟨fun hadmits x t hretypes => ?_, ?_⟩
      · cases hretypes with
        | replace _ owns isType => exact hadmits x t owns isType
      · exact fun hharmless o t ho ht => hharmless o t (.replace hok ho ht)
  | setLiteral v =>
    refine ⟨fun _ x t hretypes => ?_, fun _ => proper_setLiteral h v⟩
    cases hretypes
  | constrain t =>
    refine (proper_constrain_iff h).trans ⟨fun hadmits x t' hretypes => ?_, ?_⟩
    · cases hretypes
      exact hadmits
    · exact fun hharmless => hharmless s t .constrain
  | setConstraint o =>
    cases hok : (s.setConstraint o).1 with
    | error f => exact proper_apply_iff_of_refused h hok
    | ok evicted =>
      refine (proper_setConstraint_iff h (hoffered o rfl) hok).trans
        ⟨fun hadmits x t hretypes => ?_, ?_⟩
      · cases hretypes with
        | setConstraint _ holds isType => exact hadmits _ t holds isType
      · exact fun hharmless e t he ht => hharmless o t (.setConstraint hok he ht)
  | owned edit ih =>
    cases howns : s.constraint with
    | none =>
      rw [apply_owned_of_none howns]
      refine ⟨fun _ x t hretypes => ?_, fun _ => h⟩
      cases hretypes with
      | owned owns => exact absurd (howns.symm.trans owns) (by simp)
    | some o =>
      have ho : o.Proper := (proper_iff.mp h).2 o howns
      rw [apply_owned howns, proper_withOwned_iff h howns, ih ho hoffered]
      constructor
      · intro hharmless x t hretypes
        cases hretypes with
        | owned owns retypes =>
          obtain rfl := Option.some.inj (howns.symm.trans owns)
          exact hharmless x t retypes
      · exact fun hharmless x t hretypes => hharmless x t (.owned howns hretypes)

/-! ## Runs -/

/-- The states of a run of edits, the first and the last included. -/
def states : Slot → List Edit → List Slot
  | s, [] => [s]
  | s, edit :: edits => s :: states (edit.apply s).2 edits

/-- Every edit of a run is harmless where it is made. -/
def HarmlessAlong : Slot → List Edit → Prop
  | _, [] => True
  | s, edit :: edits => edit.Harmless s ∧ HarmlessAlong (edit.apply s).2 edits

theorem head_mem_states (s : Slot) (edits : List Edit) : s ∈ states s edits := by
  cases edits <;> simp [states]

/-- A run keeps the rules exactly if every edit of it is harmless. -/
theorem proper_states_iff {s : Slot} (h : s.Proper) {edits : List Edit}
    (hoffered : ∀ edit ∈ edits, ∀ o, edit.offered? = some o → o.Proper) :
    (∀ x ∈ states s edits, x.Proper) ↔ HarmlessAlong s edits := by
  induction edits generalizing s with
  | nil => simp [states, HarmlessAlong, h]
  | cons edit edits ih =>
    have hstep := proper_apply_iff h (hoffered edit List.mem_cons_self)
    have hrest := fun edit' hedit' => hoffered edit' (List.mem_cons_of_mem _ hedit')
    simp only [states, List.forall_mem_cons, HarmlessAlong, h, true_and]
    constructor
    · intro hproper
      have hnext := hproper _ (head_mem_states _ _)
      exact ⟨hstep.mp hnext, (ih hnext hrest).mp hproper⟩
    · rintro ⟨hharmless, halong⟩
      exact (ih (hstep.mpr hharmless) hrest).mpr halong

/-- **The rules hold along a run exactly as long as no slot is re-typed to a type that it
does not admit.**  The run starts with a fresh slot, and the slots that are handed over on
the way keep the rules. -/
theorem proper_along_run_iff {s : Slot} (fresh : (∃ t, s = ofType t) ∨ ∃ v, s = ofLiteral v)
    {edits : List Edit} (offered : ∀ edit ∈ edits, ∀ o, edit.offered? = some o → o.Proper) :
    (∀ x ∈ states s edits, x.Proper) ↔ HarmlessAlong s edits := by
  have hproper : s.Proper := by
    rcases fresh with ⟨t, rfl⟩ | ⟨v, rfl⟩
    · exact proper_ofType t
    · exact proper_ofLiteral v
  exact proper_states_iff hproper offered

/-- The type slot of a variable, as a run of edits makes it: it comes to own a slot for
objects, and a type that lands in it re-types that slot. -/
def variableRun : List Edit :=
  [.setConstraint (.ofType (.plain .object)), .add (.type (.plain .int) .detached),
    .owned (.add (.ofLiteral (.int 1) .detached))]

theorem harmlessAlong_variableRun : HarmlessAlong (.ofType (.plain .type)) variableRun := by
  refine ⟨fun x t hretypes => ?_, fun x t hretypes => ?_, fun x t hretypes => ?_, trivial⟩
  · cases hretypes with
    | setConstraint _ holds => cases holds
  · cases hretypes with
    | add _ owns =>
      obtain rfl : ofType (.plain .object) = x := Option.some.inj owns
      exact admits_ofType _ t
  · cases hretypes with
    | owned _ retypes =>
      cases retypes with
      | add _ _ isType => cases isType

theorem proper_along_variableRun :
    (∀ edit ∈ variableRun, ∀ o, edit.offered? = some o → o.Proper) ∧
      ∀ x ∈ states (.ofType (.plain .type)) variableRun, x.Proper := by
  have offered : ∀ edit ∈ variableRun, ∀ o, edit.offered? = some o → o.Proper := by
    simp [variableRun, offered?, proper_ofType]
  exact ⟨offered, (proper_along_run_iff (Or.inl ⟨_, rfl⟩) offered).mpr harmlessAlong_variableRun⟩

end Edit

/-- A raw number in a slot that was re-typed to take texts. -/
def numberInTextSlot : Slot := ((ofLiteral (.int 3)).constrain (.plain .str)).2

/-- A slot that owned another one when it was re-typed to take objects. -/
def owningObjectSlot : Slot :=
  (((ofType (.plain .type)).setConstraint object).2.constrain (.plain .object)).2

/-- **Re-typing breaks each of the three rules.** -/
theorem improper_slots_reachable :
    (Reachable (.slot numberInTextSlot) ∧ numberInTextSlot.literal? = some (.int 3) ∧
      numberInTextSlot.type.head ≠ (Literal.int 3).slotClass) ∧
    (Reachable (.slot numberInLiteralSlot) ∧ numberInLiteralSlot.isLiteralSlot = true ∧
      numberInLiteralSlot.expr? = some (.ofLiteral (.int 1) .detached)) ∧
    (Reachable (.slot owningObjectSlot) ∧ owningObjectSlot.constraint = some object ∧
      owningObjectSlot.type.head ≠ .type) := by
  have number : Reachable (.slot numberInTextSlot) := (Reachable.literalSlot _).constrain _
  have owner : Reachable (.slot owningObjectSlot) :=
    ((Reachable.emptySlot _).setConstraint (.emptySlot _)).constrain _
  exact ⟨⟨number, rfl, by decide⟩, ⟨reachable_numberInLiteralSlot, rfl, rfl⟩,
    ⟨owner, rfl, by decide⟩⟩

end Slot
end SlotTree

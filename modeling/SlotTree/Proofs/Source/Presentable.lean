import Mathlib.Tactic.Choose
import SlotTree.Proofs.Source.Settled
import SlotTree.Proofs.Tree.Alike

/-!
# Trees as an editor builds them

Which trees can be written down so that reading gives them back?  The parts of a tree that
show are what its slots hold, and about these `Presentable` asks for what the source
language can express: literals that can be written, names, `print` with well-typed
options, and calls with keywords of different names.  Nothing is asked of the binders, of
the types of the slots and of what they constrain, so it makes no difference whether
arguments were bound (`Built.presentable`) or put into their slots one by one.

One expression has no source form.  A bare `print` that is called would be written like
`print` with arguments, so a callee must not be bare.

A presentable expression is not settled in general, but it looks like one that is
(`Presentable.exists_settledTwin`).
-/

namespace SlotTree

open Reading (Argument bindArguments)

/-- The keyword and the value that are passed by the node in a slot. -/
def Slot.passed? (s : Slot) : Option (String × Expr) :=
  match s.expr? with
  | some (.keyword arg value _) =>
    match arg.literal?, value.expr? with
    | some (.str name), some e => some (name, e)
    | _, _ => none
  | _ => none

/-- An expression that shows nothing but what can be written. -/
inductive Presentable : Expr → Prop where
  | literal {v : Literal} {value : Slot} {span : Span} (holds : value.literal? = some v)
      (writable : v.Writable) : Presentable (.literal v.kind value span)
  | name {id : String} {slot : Slot} {span : Span} (holds : slot.literal? = some (.str id))
      (isName : IsName id) (isVariable : Registry.default.find? id = none) :
      Presentable (.load slot span)
  | print {objects : Variadic} {part : PrintKey → Slot} {binder : Binder} {span : Span}
      {shown : List Expr} {options : PrintOptions}
      (objectsHold : objects.slots.map Slot.expr? = shown.map some)
      (partsHold : ∀ k, (part k).Holds (options k))
      (items : ∀ e ∈ shown, Presentable e) (parts : ∀ k e, options k = some e → Presentable e)
      (fits : ∀ k e, options k = some e → e.valueType.fits k.type = true) :
      Presentable
        (.print objects (part .sep) (part .ending) (part .file) (part .flush) binder span)
  | call {func : Slot} {args keywords : Variadic} {binder : Binder} {span : Span}
      {callee : Expr} {shown : List Expr} {passed : List (String × Expr)}
      (funcHolds : func.expr? = some callee)
      (argsHold : args.slots.map Slot.expr? = shown.map some)
      (keywordsHold : keywords.slots.map Slot.passed? = passed.map some)
      (callable : Presentable callee) (notBare : callee.isBarePrint = false)
      (items : ∀ e ∈ shown, Presentable e) (parts : ∀ p ∈ passed, Presentable p.2)
      (names : ∀ p ∈ passed, IsName p.1) (distinct : (passed.map Prod.fst).Nodup) :
      Presentable (.call func args keywords binder span)

/-! ## What the constructors and the binder build -/

namespace Presentable

/-- `print` with presentable parts in fresh slots is presentable, whatever its binder has
seen of them. -/
theorem print_maybe (objects : List Expr) (options : PrintOptions) {binder : Binder} {span : Span}
    (items : ∀ e ∈ objects, Presentable e) (parts : ∀ k e, options k = some e → Presentable e)
    (fits : ∀ k e, options k = some e → e.valueType.fits k.type = true) :
    Presentable (.print ⟨.plain .object, objects.map (.holding (.plain .object))⟩
      (.maybe PrintKey.sep.type (options .sep)) (.maybe PrintKey.ending.type (options .ending))
      (.maybe PrintKey.file.type (options .file)) (.maybe PrintKey.flush.type (options .flush))
      binder span) := by
  have hparts : ∀ k : PrintKey, (Slot.maybe k.type (options k)).Holds (options k) :=
    fun k => Slot.holds_maybe k.type (options k)
  have hobjects : (objects.map (Slot.holding (.plain .object))).map Slot.expr? =
      objects.map some := by
    rw [List.map_map]
    rfl
  exact .print hobjects hparts items parts fits

/-- A call with presentable parts is presentable, whether or not it was invoked. -/
theorem callWith {func : Expr} {args : List Expr} {keywords : List (String × Expr)}
    {invoked : Bool} {span : Span} (callable : Presentable func)
    (notBare : func.isBarePrint = false) (items : ∀ e ∈ args, Presentable e)
    (parts : ∀ p ∈ keywords, Presentable p.2) (names : ∀ p ∈ keywords, IsName p.1)
    (distinct : (keywords.map Prod.fst).Nodup) :
    Presentable (.callWith func args keywords invoked span) := by
  have hargs : (args.map (Slot.holding (.plain .object))).map Slot.expr? = args.map some := by
    rw [List.map_map]
    rfl
  have hkeywords : (keywords.map fun p =>
      Slot.holding (.plain .keyword) (Expr.keywordNode p)).map Slot.passed? =
        keywords.map some := by
    rw [List.map_map]
    rfl
  exact .call rfl hargs hkeywords callable notBare items parts names distinct

end Presentable

/-- An expression that the constructors and the binder build from what can be written. -/
inductive Built : Expr → Prop where
  | literal {v : Literal} {span : Span} (writable : v.Writable) : Built (.ofLiteral v span)
  | name {id : String} {span : Span} (isName : IsName id)
      (isVariable : Registry.default.find? id = none) : Built (.ofName id span)
  | mention {span : Span} : Built (.emptyPrint span)
  | print {closing : Position} {span : Span} {args : List Argument} {bound : Expr}
      (arguments : ∀ a ∈ args, Built a.value)
      (binds : bindArguments closing (.emptyPrint span) args = .ok bound) : Built bound
  | call {closing : Position} {span : Span} {func call : Expr} {args : List Argument}
      {bound : Expr} (callable : Built func) (notBare : func.isBarePrint = false)
      (arguments : ∀ a ∈ args, Built a.value)
      (names : ∀ a ∈ args, ∀ keyword ∈ a.keyword, IsName keyword)
      (calls : func.callOf span = .ok call) (binds : bindArguments closing call args = .ok bound) :
      Built bound

/-- **What the constructors and the binder build is presentable.** -/
theorem Built.presentable {e : Expr} (h : Built e) : Presentable e := by
  induction h with
  | literal writable => exact .literal rfl writable
  | name isName isVariable => exact .name rfl isName isVariable
  | mention =>
    exact .print_maybe [] .none (fun e he => nomatch he) (fun k e he => nomatch he)
      (fun k e he => nomatch he)
  | @print closing span args bound _ binds arguments =>
    have hvalue : ∀ e ∈ args.map Argument.value, Presentable e := by
      intro e he
      obtain ⟨a, ha, rfl⟩ := List.mem_map.mp he
      exact arguments a ha
    obtain ⟨objects, options, invoked, rfl, hobjects, hoptions⟩ :=
      Expr.printWith_of_bindArguments_emptyPrint binds
    exact .print_maybe objects options (fun e he => hvalue e (hobjects e he).1)
      (fun k e he => hvalue e (hoptions k e he).1) (fun k e he => (hoptions k e he).2)
  | call _ notBare _ names calls binds callable arguments =>
    obtain ⟨args, keywords, invoked, rfl, hdistinct, hargs, hkeywords⟩ :=
      Expr.callWith_of_bindArguments_callOf calls binds
    exact .callWith callable notBare (fun e he => arguments _ (hargs e he).1)
      (fun p hp => arguments _ (hkeywords p hp).1) (fun p hp => names _ (hkeywords p hp).1 p.1 rfl)
      hdistinct

/-! ## Settled twins -/

theorem Slot.passed?_eq_some {s : Slot} {name : String} {e : Expr}
    (h : s.passed? = some (name, e)) :
    ∃ arg value span, s.expr? = some (.keyword arg value span) ∧
      arg.literal? = some (.str name) ∧ value.expr? = some e := by
  unfold passed? at h
  split at h
  · next arg value span hs =>
    split at h
    · next name' e' harg hvalue =>
      obtain ⟨rfl, rfl⟩ := Prod.mk.inj (Option.some.inj h)
      exact ⟨arg, value, span, hs, harg, hvalue⟩
    · cases h
  · cases h

/-- Slots that pass values under keywords look like slots that pass their twins. -/
theorem forall₂_alike_keywords {ss : List Slot} {passed : List (String × Expr)}
    {twin : String × Expr → Expr} (hss : ss.map Slot.passed? = passed.map some)
    (h : ∀ p ∈ passed, p.2.Alike (twin p)) :
    List.Forall₂ Slot.Alike ss ((passed.map fun p => (p.1, twin p)).map fun p =>
      .holding (.plain .keyword) (Expr.keywordNode p)) := by
  induction passed generalizing ss with
  | nil =>
    obtain rfl : ss = [] := by simpa using hss
    exact .nil
  | cons p passed ih =>
    obtain ⟨s, ss, rfl, hs, hss⟩ := List.map_eq_cons_iff.mp hss
    obtain ⟨arg, value, span, hnode, harg, hvalue⟩ := Slot.passed?_eq_some hs
    have hp : (Expr.keyword arg value span).Alike (Expr.keywordNode (p.1, twin p)) :=
      .keyword harg rfl hvalue rfl (h p List.mem_cons_self)
    refine .cons (.of_expr? hnode rfl hp) (ih hss fun p' hp' => ?_)
    exact h p' (List.mem_cons_of_mem p hp')

/-- The text of a literal depends on the raw value alone. -/
theorem Source.literal_of_literal? {value value' : Slot} (h : value.literal? = value'.literal?)
    (kind : LiteralKind) (span : Span) :
    Source.literal kind value span = Source.literal kind value' span := by
  have htruth : value.truth = value'.truth := by simp only [Slot.truth, h]
  have hwhole : value.whole = value'.whole := by simp only [Slot.whole, h]
  have hfloating : value.floating = value'.floating := by simp only [Slot.floating, h]
  have htext : value.text = value'.text := by simp only [Slot.text, h]
  cases kind <;> simp only [Source.literal, htruth, hwhole, hfloating, htext]

/-- A literal looks like the fresh one of its value. -/
theorem Expr.alike_ofLiteral {v : Literal} {value : Slot} (h : value.literal? = some v)
    (span : Span) : (Expr.literal v.kind value span).Alike (.ofLiteral v span) := by
  refine ⟨?_, ?_⟩
  · rw [ofLiteral, dump, dump, Slot.dump_of_literal? h]
    rfl
  · rw [ofLiteral, render, render]
    exact Source.literal_of_literal? h v.kind span

/-- `print` that is bare holds nothing. -/
theorem Expr.holds_nothing_of_isBarePrint {objects : Variadic} {part : PrintKey → Slot}
    {binder : Binder} {span : Span} {options : PrintOptions}
    (hparts : ∀ k, (part k).Holds (options k))
    (h : (Expr.print objects (part .sep) (part .ending) (part .file) (part .flush) binder
      span).isBarePrint = true) : objects.slots = [] ∧ options = .none := by
  simp only [isBarePrint, hasArguments, Slot.isOccupied_of_holds (hparts _), List.any_cons,
    List.any_nil, Bool.and_eq_true, Bool.not_eq_true', Bool.or_eq_false_iff, Bool.not_eq_false',
    List.isEmpty_iff, Option.isSome_eq_false_iff, Option.isNone_iff_eq_none] at h
  obtain ⟨-, hobjects, hsep, hending, hfile, hflush, -⟩ := h
  refine ⟨hobjects, funext fun k => ?_⟩
  cases k
  · exact hsep
  · exact hending
  · exact hfile
  · exact hflush

/-- A settled expression that looks like the given one.  It has been invoked wherever there
is something to invoke, unless it is `print` and bare. -/
structure SettledTwin (e t : Expr) : Prop where
  settled : Settled t
  alike : e.Alike t
  type : e.valueType = t.valueType
  invoked : e.isBarePrint = false → t.isInvoked? ≠ some false

theorem exists_settledTwin_print {objects : Variadic} {part : PrintKey → Slot} {binder : Binder}
    {span : Span} {shown : List Expr} {options : PrintOptions}
    (objectsHold : objects.slots.map Slot.expr? = shown.map some)
    (partsHold : ∀ k, (part k).Holds (options k)) (items : ∀ e ∈ shown, ∃ t, SettledTwin e t)
    (parts : ∀ k e, options k = some e → ∃ t, SettledTwin e t)
    (fits : ∀ k e, options k = some e → e.valueType.fits k.type = true) :
    ∃ t, SettledTwin
      (.print objects (part .sep) (part .ending) (part .file) (part .flush) binder span) t := by
  choose! twin htwin using items
  choose! twin' htwin' using parts
  cases hbare : (Expr.print objects (part .sep) (part .ending) (part .file) (part .flush) binder
      span).isBarePrint with
  | true =>
    obtain ⟨hobjects, rfl⟩ := Expr.holds_nothing_of_isBarePrint partsHold hbare
    have hparts : ∀ k, (part k).Alike (.ofType k.type) := fun k => .of_empty (partsHold k) rfl
    refine ⟨.emptyPrint span, .mention, .print ?_ hparts hbare, rfl, ?_⟩
    · rw [hobjects]
      exact .nil
    · rw [hbare]
      intro h
      cases h
  | false =>
    have hparts : ∀ k, (part k).Alike (.maybe k.type ((options k).map (twin' k))) := fun k =>
      .of_holds (partsHold k) (Slot.holds_maybe _ _) fun e he => (htwin' k e he).alike
    have hobjects := forall₂_alike_holding (t := .plain .object) objectsHold fun e he =>
      (htwin e he).alike
    refine ⟨.printWith (shown.map twin) (fun k => (options k).map (twin' k)) true span, ?_,
      .print hobjects hparts ?_, rfl, ?_⟩
    · refine .print (fun e he => ?_) (fun k e he => ?_) (fun k e he => ?_)
      · obtain ⟨x, hx, rfl⟩ := List.mem_map.mp he
        exact (htwin x hx).settled
      · obtain ⟨x, hx, rfl⟩ := Option.map_eq_some_iff.mp he
        exact (htwin' k x hx).settled
      · obtain ⟨x, hx, rfl⟩ := Option.map_eq_some_iff.mp he
        rw [← (htwin' k x hx).type]
        exact fits k x hx
    · rw [hbare]
      rfl
    · rintro - ⟨⟩

theorem exists_settledTwin_call {func : Slot} {args keywords : Variadic} {binder : Binder}
    {span : Span} {callee : Expr} {shown : List Expr} {passed : List (String × Expr)}
    (funcHolds : func.expr? = some callee)
    (argsHold : args.slots.map Slot.expr? = shown.map some)
    (keywordsHold : keywords.slots.map Slot.passed? = passed.map some)
    (callable : ∃ t, SettledTwin callee t) (notBare : callee.isBarePrint = false)
    (items : ∀ e ∈ shown, ∃ t, SettledTwin e t) (parts : ∀ p ∈ passed, ∃ t, SettledTwin p.2 t)
    (names : ∀ p ∈ passed, IsName p.1) (distinct : (passed.map Prod.fst).Nodup) :
    ∃ t, SettledTwin (.call func args keywords binder span) t := by
  have : Nonempty Expr := ⟨callee⟩
  obtain ⟨callee', hcallee⟩ := callable
  choose! twin htwin using items
  choose! twin' htwin' using parts
  refine ⟨.callWith callee' (shown.map twin) (passed.map fun p => (p.1, twin' p)) true span,
    ?_, ?_, rfl, ?_⟩
  · refine .call hcallee.settled (hcallee.invoked notBare) (fun e he => ?_) (fun p hp => ?_)
      (fun p hp => ?_) ?_
    · obtain ⟨x, hx, rfl⟩ := List.mem_map.mp he
      exact (htwin x hx).settled
    · obtain ⟨x, hx, rfl⟩ := List.mem_map.mp hp
      exact (htwin' x hx).settled
    · obtain ⟨x, hx, rfl⟩ := List.mem_map.mp hp
      exact names x hx
    · rw [List.map_map]
      exact distinct
  · exact .call (.of_expr? funcHolds rfl hcallee.alike)
      (forall₂_alike_holding argsHold fun e he => (htwin e he).alike)
      (forall₂_alike_keywords keywordsHold fun p hp => (htwin' p hp).alike)
  · rintro - ⟨⟩

/-- **A presentable expression looks like a settled one.** -/
theorem Presentable.exists_settledTwin {e : Expr} (h : Presentable e) : ∃ t, SettledTwin e t := by
  induction h with
  | @literal v value span holds writable =>
    refine ⟨.ofLiteral v span, .literal writable, Expr.alike_ofLiteral holds span, rfl, ?_⟩
    rintro - ⟨⟩
  | @name id slot span holds isName isVariable =>
    refine ⟨.ofName id span, .name isName isVariable, ⟨?_, ?_⟩, rfl, ?_⟩
    · rw [Expr.ofName, Expr.dump, Expr.dump, Slot.dump_of_literal? holds]
      rfl
    · rw [Expr.ofName, Expr.render, Expr.render, Slot.text_of_literal? holds]
      rfl
    · rintro - ⟨⟩
  | print objectsHold partsHold _ _ fits items parts =>
    exact exists_settledTwin_print objectsHold partsHold items parts fits
  | call funcHolds argsHold keywordsHold _ notBare _ _ names distinct callable items parts =>
    exact exists_settledTwin_call funcHolds argsHold keywordsHold callable notBare items parts
      names distinct

end SlotTree

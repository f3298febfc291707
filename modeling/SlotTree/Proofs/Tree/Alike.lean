import Mathlib.Data.List.Forall2
import SlotTree.Proofs.Tree.Bind
import SlotTree.Source.Render
import SlotTree.Tree.Dump

/-!
# Trees that look alike

An editor can leave more behind in a tree than what is shown of it: slots of other types
than fresh ones have, constrained slots, binders that have not seen the arguments that
were put into the slots by hand.  Two expressions look alike if they are dumped as the
same document and have the same source form, whatever else is in them.

Looking alike is a congruence.  A call looks like another one if their slots do
(`Expr.Alike.call`), and `print` looks like another one if their slots do and either both
or neither are bare (`Expr.Alike.print`), where `print` is bare if it was not invoked and
holds no argument.
-/

namespace SlotTree

/-- The expressions are shown alike, as documents and as source. -/
structure Expr.Alike (e e' : Expr) : Prop where
  dumps : e.dump = e'.dump
  renders : e.render = e'.render

/-- The slots are shown alike. -/
structure Slot.Alike (s s' : Slot) : Prop where
  dumps : s.dump = s'.dump
  renders : s.render? = s'.render?
  occupied : s.isOccupied = s'.isOccupied

/-! ## Slots -/

namespace Slot

/-- The content of a slot that may hold an expression. -/
def Holds (s : Slot) (held : Option Expr) : Prop := s.content = held.elim .empty .expr

theorem content_of_expr? {s : Slot} {e : Expr} (h : s.expr? = some e) : s.content = .expr e := by
  obtain ⟨t, content, owned⟩ := s
  cases content with
  | empty | literal v => cases h
  | expr e' => rw [Option.some.inj h]

theorem holds_maybe (t : Ty) (held : Option Expr) : (maybe t held).Holds held := by
  cases held <;> rfl

theorem dump_of_content {s : Slot} {e : Expr} (h : s.content = .expr e) : s.dump = e.dump := by
  obtain ⟨t, content, owned⟩ := s
  simp only at h
  rw [h, dump]

theorem render?_of_content {s : Slot} {e : Expr} (h : s.content = .expr e) :
    s.render? = some e.render := by
  obtain ⟨t, content, owned⟩ := s
  simp only at h
  rw [h, render?]

theorem dump_of_literal? {s : Slot} {v : Literal} (h : s.literal? = some v) : s.dump = v.dump := by
  obtain ⟨t, content, owned⟩ := s
  cases content with
  | empty | expr e => cases h
  | literal v' =>
    obtain rfl := Option.some.inj h
    rw [dump]

theorem text_of_literal? {s : Slot} {name : String} (h : s.literal? = some (.str name)) :
    s.text = name := by
  rw [text, h]

theorem isOccupied_of_holds {s : Slot} {held : Option Expr} (h : s.Holds held) :
    s.isOccupied = held.isSome := by
  rw [isOccupied, h]
  cases held <;> rfl

/-- What may be absent from a slot is rendered as what the slot must hold is. -/
theorem renderPart_eq (s : Slot) :
    s.renderPart = (s.render?.map fun outcome => outcome.map some).getD (.ok none) := by
  obtain ⟨t, content, owned⟩ := s
  cases content <;> rfl

namespace Alike

/-- Slots that hold expressions that look alike look alike. -/
theorem of_expr? {s s' : Slot} {e e' : Expr} (hs : s.expr? = some e) (hs' : s'.expr? = some e')
    (h : e.Alike e') : s.Alike s' := by
  have hcontent := content_of_expr? hs
  have hcontent' := content_of_expr? hs'
  refine ⟨?_, ?_, ?_⟩
  · rw [dump_of_content hcontent, dump_of_content hcontent', h.dumps]
  · rw [render?_of_content hcontent, render?_of_content hcontent', h.renders]
  · rw [isOccupied, isOccupied, hcontent, hcontent']

/-- Slots that hold nothing look alike. -/
theorem of_empty {s s' : Slot} (hs : s.content = .empty) (hs' : s'.content = .empty) :
    s.Alike s' := by
  obtain ⟨t, content, owned⟩ := s
  obtain ⟨t', content', owned'⟩ := s'
  simp only at hs hs'
  subst hs hs'
  exact ⟨rfl, rfl, rfl⟩

/-- Slots that may hold expressions look alike if what they hold does. -/
theorem of_holds {s s' : Slot} {held : Option Expr} {twin : Expr → Expr} (hs : s.Holds held)
    (hs' : s'.Holds (held.map twin)) (h : ∀ e, held = some e → e.Alike (twin e)) :
    s.Alike s' := by
  cases held with
  | none => exact of_empty hs hs'
  | some e =>
    have hexpr : s.expr? = some e := by
      rw [expr?, hs]
      rfl
    have hexpr' : s'.expr? = some (twin e) := by
      rw [expr?, hs']
      rfl
    exact of_expr? hexpr hexpr' (h e rfl)

theorem renderPart {s s' : Slot} (h : s.Alike s') : s.renderPart = s'.renderPart := by
  rw [renderPart_eq, renderPart_eq, h.renders]

end Alike
end Slot

/-! ## Rest fields -/

/-- Rest fields whose slots look alike are dumped as the same documents. -/
theorem dumpSlots_of_alike {ss ss' : List Slot} (h : List.Forall₂ Slot.Alike ss ss') :
    dumpSlots ss = dumpSlots ss' := by
  induction h with
  | nil => rfl
  | cons hs _ ih => rw [dumpSlots, dumpSlots, hs.dumps, ih]

/-- A slot of arguments contributes what may be in it. -/
theorem renderSlots_cons (s : Slot) (ss : List Slot) :
    renderSlots (s :: ss) = (do
      let part ← s.renderPart
      let texts ← renderSlots ss
      .ok (part.toList ++ texts)) := by
  obtain ⟨t, content, owned⟩ := s
  cases content with
  | empty | literal v =>
    rw [renderSlots, Slot.renderPart]
    · cases renderSlots ss <;> rfl
    all_goals exact fun _ _ _ h => nomatch h
  | expr e =>
    rw [renderSlots, Slot.renderPart]
    cases e.render <;> rfl

/-- Rest fields whose slots look alike have the same source forms. -/
theorem renderSlots_of_alike {ss ss' : List Slot} (h : List.Forall₂ Slot.Alike ss ss') :
    renderSlots ss = renderSlots ss' := by
  induction h with
  | nil => rfl
  | cons hs _ ih => rw [renderSlots_cons, renderSlots_cons, hs.renderPart, ih]

/-- Slots that hold the expressions of a list look like slots that hold their twins. -/
theorem forall₂_alike_holding {ss : List Slot} {es : List Expr} {twin : Expr → Expr} {t : Ty}
    (hss : ss.map Slot.expr? = es.map some) (h : ∀ e ∈ es, e.Alike (twin e)) :
    List.Forall₂ Slot.Alike ss ((es.map twin).map (.holding t)) := by
  induction es generalizing ss with
  | nil =>
    obtain rfl : ss = [] := by simpa using hss
    exact .nil
  | cons e es ih =>
    obtain ⟨s, ss, rfl, hs, hss⟩ := List.map_eq_cons_iff.mp hss
    refine .cons (.of_expr? hs rfl (h e List.mem_cons_self)) (ih hss fun e' he' => ?_)
    exact h e' (List.mem_cons_of_mem e he')

/-! ## Expressions -/

namespace Expr

/-- Whether the expression is `print`, not invoked and without an argument. -/
def isBarePrint : Expr → Bool
  | print objects sep ending file flush binder _ =>
    !binder.invoked && !hasArguments objects [sep, ending, file, flush]
  | _ => false

namespace Alike

/-- Keyword nodes with the same name look alike if their values do. -/
theorem keyword {arg arg' value value' : Slot} {name : String} {held held' : Expr}
    {span span' : Span} (harg : arg.literal? = some (.str name))
    (harg' : arg'.literal? = some (.str name)) (hvalue : value.expr? = some held)
    (hvalue' : value'.expr? = some held') (h : held.Alike held') :
    (Expr.keyword arg value span).Alike (Expr.keyword arg' value' span') := by
  have hslots : value.Alike value' := .of_expr? hvalue hvalue' h
  have hrender := Slot.render?_of_content (Slot.content_of_expr? hvalue')
  refine ⟨?_, ?_⟩
  · rw [dump, dump, Slot.dump_of_literal? harg, Slot.dump_of_literal? harg', hslots.dumps]
  · rw [render, render, hslots.renders, hrender, Slot.text_of_literal? harg,
      Slot.text_of_literal? harg']
    cases held'.render <;> rfl

/-- Calls look alike if their slots do. -/
theorem call {func func' : Slot} {args args' keywords keywords' : Variadic} {b b' : Binder}
    {span : Span} (hfunc : func.Alike func')
    (hargs : List.Forall₂ Slot.Alike args.slots args'.slots)
    (hkeywords : List.Forall₂ Slot.Alike keywords.slots keywords'.slots) :
    (Expr.call func args keywords b span).Alike (Expr.call func' args' keywords' b' span) := by
  obtain ⟨t, args⟩ := args
  obtain ⟨t', args'⟩ := args'
  obtain ⟨u, keywords⟩ := keywords
  obtain ⟨u', keywords'⟩ := keywords'
  refine ⟨?_, ?_⟩
  · rw [dump, dump, hfunc.dumps, dumpSlots_of_alike hargs, dumpSlots_of_alike hkeywords]
  · rw [render, render, hfunc.renders, renderSlots_of_alike hargs, renderSlots_of_alike hkeywords]

/-- Two times `print` looks alike if the slots do and it is bare both times or not at
all. -/
theorem print {objects objects' : Variadic} {part part' : PrintKey → Slot} {b b' : Binder}
    {span span' : Span} (hobjects : List.Forall₂ Slot.Alike objects.slots objects'.slots)
    (hparts : ∀ k, (part k).Alike (part' k))
    (hbare : (Expr.print objects (part .sep) (part .ending) (part .file) (part .flush) b
        span).isBarePrint =
      (Expr.print objects' (part' .sep) (part' .ending) (part' .file) (part' .flush) b'
        span').isBarePrint) :
    (Expr.print objects (part .sep) (part .ending) (part .file) (part .flush) b span).Alike
      (Expr.print objects' (part' .sep) (part' .ending) (part' .file) (part' .flush) b' span') := by
  obtain ⟨t, objects⟩ := objects
  obtain ⟨t', objects'⟩ := objects'
  simp only [isBarePrint] at hbare
  refine ⟨?_, ?_⟩
  · rw [dump, dump, dumpSlots_of_alike hobjects, (hparts .sep).dumps, (hparts .ending).dumps,
      (hparts .file).dumps, (hparts .flush).dumps]
  · rw [render, render, hbare, renderSlots_of_alike hobjects, (hparts .sep).renderPart,
      (hparts .ending).renderPart, (hparts .file).renderPart, (hparts .flush).renderPart]

end Alike
end Expr
end SlotTree

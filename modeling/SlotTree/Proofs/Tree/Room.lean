import SlotTree.Proofs.Tree.Offer
import Mathlib.Data.List.Induction

/-!
# Room for an argument

A parameter fills a field of its kind: a slot, or a rest field for any number of
arguments (`Parameter.Suits`).  What a binding does with an argument, once it is known
which parameter should take it, is what this field does with it.

A field takes an expression under three conditions, the same for both kinds
(`Field.add_eq_ok_iff`): it has room, it is no literal one, and the expression fits.
`Binding.positional_at`, `Binding.keyword_at_slot` and `Binding.keyword_at_collector`
carry this over to bindings, one for each way in which an argument is passed and taken;
collected keywords are looked through for a namesake first, because a rest field has
room for it.
-/

namespace SlotTree

namespace Parameter

/-- Whether the parameter takes one positional argument. -/
def isPositional : Parameter → Bool
  | positional _ => true
  | _ => false

/-- Whether the parameter takes arguments passed by position. -/
def takesPosition : Parameter → Bool
  | positional _ | variadic _ => true
  | _ => false

/-- The field is of the kind that the parameter fills. -/
def Suits : Parameter → Field → Prop
  | positional _, .slot _ | keywordOnly _, .slot _ => True
  | variadic _, .variadic _ | variadicKeyword _, .variadic _ => True
  | _, _ => False

/-- The field is empty and of the kind that the parameter fills. -/
def Awaits : Parameter → Field → Prop
  | positional _, .slot s | keywordOnly _, .slot s =>
    s.isOccupied = false ∧ s.isLiteralSlot = false
  | variadic _, .variadic v => v.slots = [] ∧ v.itemType.head.isLiteral = false
  | variadicKeyword _, .variadic v => v.slots = [] ∧ v.itemType = .plain .keyword
  | _, _ => False

end Parameter

/-! ## Filling a field -/

/-- An expression is taken unless there is a reason to refuse it. -/
theorem Slot.add_eq_ok_iff {s : Slot} {e : Expr} :
    (s.add e).1 = .ok () ↔
      s.isOccupied = false ∧ s.isLiteralSlot = false ∧ s.accepts e = true := by
  cases hliteral : s.isLiteralSlot with
  | true => simp [add, place, hliteral, Except.map]
  | false =>
    cases hoccupied : s.isOccupied with
    | true => simp [add, place, hliteral, hoccupied, Except.map]
    | false =>
      cases haccepts : s.accepts e <;>
        simp [add, place, hliteral, hoccupied, haccepts, Except.map]

/-- An expression that is offered never changes the type of the slot. -/
@[simp] theorem Slot.type_add (s : Slot) (e : Expr) : (s.add e).2.type = s.type := by
  cases hadd : (s.add e).1 with
  | ok u => rw [(add_ok hadd).2.2, type_applyConstraint]
  | error f => rw [add_error hadd]

theorem Slot.expr?_add {s : Slot} {e : Expr} (h : (s.add e).1 = .ok ()) :
    (s.add e).2.expr? = some e := by
  rw [(add_ok h).2.2, expr?_applyConstraint]
  rfl

theorem Slot.expr?_of_not_isOccupied {s : Slot} (h : s.isOccupied = false) : s.expr? = none := by
  obtain ⟨type, content, constraint⟩ := s
  cases content <;> simp_all [isOccupied, expr?]

/-- What a rest field does with an item is what a fresh slot does with it. -/
theorem Variadic.push_eq (v : Variadic) (e : Expr) :
    (v.push e).1 = ((Slot.ofType v.itemType).add e).1 ∧
      ((v.push e).1 = .ok () →
        (v.push e).2 = ⟨v.itemType, v.slots ++ [((Slot.ofType v.itemType).add e).2]⟩) ∧
      (v.push e).2.itemType = v.itemType := by
  unfold push
  split
  · next hadd => simp [hadd]
  · next hadd => simp [hadd]

namespace Field

/-- The type that an expression in the field has to fit. -/
def type : Field → Ty
  | slot s => s.type
  | variadic v => v.itemType

/-- Whether the field has room for an expression. -/
def isFree : Field → Bool
  | slot s => !s.isOccupied
  | variadic _ => true

/-- The field after expressions have been added one after the other. -/
def addAll (f : Field) (es : List Expr) : Field := es.foldl (fun f e => (f.add e).2) f

variable {f : Field} {e : Expr}

@[simp] theorem addAll_nil (f : Field) : f.addAll [] = f := rfl

theorem addAll_snoc (f : Field) (es : List Expr) (e : Expr) :
    f.addAll (es ++ [e]) = ((f.addAll es).add e).2 := by simp [addAll]

/-- A field takes an expression that fits, if it has room and is no literal one. -/
theorem add_eq_ok_iff :
    (f.add e).1 = .ok () ↔
      f.isFree = true ∧ f.type.head.isLiteral = false ∧ e.valueType.fits f.type = true := by
  cases f with
  | slot s =>
    show (s.add e).1 = _ ↔ _
    rw [Slot.add_eq_ok_iff]
    simp [isFree, type, Slot.isLiteralSlot, Slot.accepts]
  | variadic v =>
    show (v.push e).1 = _ ↔ _
    rw [(v.push_eq e).1, Slot.add_eq_ok_iff]
    simp [isFree, type, Slot.isLiteralSlot, Slot.accepts, Slot.ofType, Slot.isOccupied]

@[simp] theorem type_add (f : Field) (e : Expr) : (f.add e).2.type = f.type := by
  cases f with
  | slot s => exact s.type_add e
  | variadic v => exact (v.push_eq e).2.2

@[simp] theorem type_addAll (f : Field) (es : List Expr) : (f.addAll es).type = f.type := by
  induction es using List.reverseRecOn with
  | nil => rfl
  | append_singleton es e ih => rw [addAll_snoc, type_add, ih]

/-- An expression that is taken comes last. -/
theorem exprs_add (h : (f.add e).1 = .ok ()) : (f.add e).2.exprs = f.exprs ++ [e] := by
  cases f with
  | slot s =>
    have hadded : (s.add e).1 = .ok () := h
    have hempty : s.expr? = none :=
      Slot.expr?_of_not_isOccupied (Slot.add_eq_ok_iff.mp hadded).1
    simp [add, exprs, slots, hempty, Slot.expr?_add hadded]
  | variadic v =>
    obtain ⟨houtcome, hpushed, -⟩ := v.push_eq e
    have hadded : ((Slot.ofType v.itemType).add e).1 = .ok () := houtcome ▸ h
    simp [add, exprs, slots, hpushed h, Slot.expr?_add hadded]

end Field

namespace Parameter

variable {p : Parameter} {f : Field}

/-! An empty field suits its parameter, has room, is no literal one, and holds nothing. -/

theorem Awaits.suits (h : p.Awaits f) : p.Suits f := by
  cases p <;> cases f <;> trivial

theorem Awaits.isLiteral_type (h : p.Awaits f) : f.type.head.isLiteral = false := by
  cases p <;> cases f <;> simp_all [Awaits, Field.type, Slot.isLiteralSlot, Class.isLiteral]

theorem Awaits.isFree (h : p.Awaits f) : f.isFree = true := by
  cases p <;> cases f <;> simp_all [Awaits, Field.isFree]

theorem Awaits.exprs (h : p.Awaits f) : f.exprs = [] := by
  cases p <;> cases f <;>
    simp_all [Awaits, Field.exprs, Field.slots, Slot.expr?_of_not_isOccupied]

theorem Awaits.type_eq_keyword {name : String} (h : (variadicKeyword name).Awaits f) :
    f.type = .plain .keyword := by
  cases f with
  | slot s => cases h
  | variadic v => exact h.2

theorem Suits.add (h : p.Suits f) (e : Expr) : p.Suits (f.add e).2 := by
  cases p <;> cases f <;> trivial

/-- A rest field always has room. -/
theorem Suits.isFree {name : String} (h : (variadic name).Suits f) : f.isFree = true := by
  cases f with
  | slot s => cases h
  | variadic v => rfl

theorem Suits.exists_slot {k : String} (h : (keywordOnly k).Suits f) : ∃ s, f = .slot s := by
  cases f with
  | slot s => exact ⟨s, rfl⟩
  | variadic v => cases h

theorem Suits.exists_variadic {name : String} (h : (variadicKeyword name).Suits f) :
    ∃ v, f = .variadic v := by
  cases f with
  | slot s => cases h
  | variadic v => exact ⟨v, rfl⟩

/-- A slot that has room holds no expression. -/
theorem Suits.exprs_of_isFree {k : String} (h : (keywordOnly k).Suits f)
    (hfree : f.isFree = true) : f.exprs = [] := by
  cases f with
  | slot s =>
    have hempty : s.expr? = none := Slot.expr?_of_not_isOccupied (by simpa [Field.isFree] using hfree)
    simp [Field.exprs, Field.slots, hempty]
  | variadic v => cases h

theorem Suits.addAll (h : p.Suits f) (es : List Expr) : p.Suits (f.addAll es) := by
  induction es using List.reverseRecOn with
  | nil => exact h
  | append_singleton es e ih =>
    rw [Field.addAll_snoc]
    exact ih.add e

end Parameter

/-! ## Bindings -/

namespace Binding

variable {params : List Parameter} {b : Binding}

theorem any_takesKeyword_iff {k : String} :
    params.any (Parameter.takesKeyword k) = true ↔ .keywordOnly k ∈ params := by
  rw [List.any_eq_true]
  constructor
  · rintro ⟨p, hp, htakes⟩
    cases p <;> simp_all [Parameter.takesKeyword]
  · exact fun h => ⟨_, h, by simp [Parameter.takesKeyword]⟩

/-- A parameter takes a positional argument if its field does. -/
theorem positional_at (callee : String) {index : Nat} {p : Parameter} {g : Field} (x : Expr)
    (hnext : b.binder.next = some index) (hparam : params[index]? = some p)
    (hfield : Fields.get? b.fields p.name = some g) (htakes : p.takesPosition = true)
    (hsuits : p.Suits g) :
    ((positional callee params b x).1 = .ok () ↔ (g.add x).1 = .ok ()) ∧
      ((g.add x).1 = .ok () → (positional callee params b x).2 =
        ⟨⟨some (if p.isPositional then index + 1 else index), true⟩,
          Fields.set b.fields p.name (g.add x).2⟩) := by
  have hnext' : b.offered.binder.next = some index := hnext
  have hfield' : Fields.get? b.offered.fields p.name = some g := hfield
  cases p with
  | positional name =>
    cases g with
    | variadic v => cases hsuits
    | slot s =>
      simp only [positional, hnext', hparam, hfield']
      cases hadd : s.add x with
      | mk outcome s' =>
        cases outcome with
        | error f => simp [Field.add, hadd]
        | ok u => simp [Field.add, hadd, Parameter.isPositional, Parameter.name, offered]
  | variadic name =>
    cases g with
    | slot s => cases hsuits
    | variadic v =>
      simp only [positional, hnext', hparam, hfield']
      cases hadd : v.push x with
      | mk outcome v' =>
        cases outcome with
        | error f => simp [Field.add, hadd]
        | ok u => simp [Field.add, hadd, hnext, Parameter.isPositional, Parameter.name, offered]
  | keywordOnly | variadicKeyword => cases htakes

/-- Where no parameter is left, or one that takes keywords, no positional argument is
taken. -/
theorem positional_ne_ok (callee : String) {index : Nat} (x : Expr) (hnext : b.binder.next = some index)
    (hparam : ∀ p, params[index]? = some p → p.takesPosition = false) :
    (positional callee params b x).1 ≠ .ok () := by
  have hnext' : b.offered.binder.next = some index := hnext
  simp only [positional, hnext']
  cases hget : params[index]? with
  | none => simp
  | some p =>
    have htakes := hparam p hget
    cases p with
    | positional name => cases htakes
    | variadic name => cases htakes
    | keywordOnly name => simp
    | variadicKeyword name => simp

/-- A keyword-only parameter takes an argument if its slot does. -/
theorem keyword_at_slot (callee : String) {k : String} {s : Slot} (x : Expr)
    (hmem : .keywordOnly k ∈ params)
    (hfield : Fields.get? b.fields k = some (.slot s)) :
    ((keyword callee params b k x).1 = .ok () ↔ (s.add x).1 = .ok ()) ∧
      ((s.add x).1 = .ok () → (keyword callee params b k x).2 =
        ⟨⟨none, true⟩, Fields.set b.fields k (.slot (s.add x).2)⟩) := by
  have hfield' : Fields.get? b.offered.fields k = some (.slot s) := hfield
  simp only [keyword, any_takesKeyword_iff.mpr hmem, if_true, hfield']
  cases hoccupied : s.isOccupied with
  | true =>
    have hrefused : (s.add x).1 ≠ .ok () := by simp [Slot.add_eq_ok_iff, hoccupied]
    simp [hrefused]
  | false =>
    cases hadd : s.add x with
    | mk outcome s' =>
      cases outcome with
      | error f => simp
      | ok u => simp [offered]

/-- The collector takes an argument under a keyword that it does not hold yet. -/
theorem keyword_at_collector (callee : String) {k field : String} {v : Variadic} (x : Expr)
    (hmem : .keywordOnly k ∉ params)
    (hcollects : params.findSome? Parameter.collector? = some field)
    (hfield : Fields.get? b.fields field = some (.variadic v))
    (hitem : v.itemType = .plain .keyword) :
    ((keyword callee params b k x).1 = .ok () ↔
        (∀ e ∈ v.exprs, e.keywordName? ≠ some k) ∧ x.valueType.fits (.plain .object) = true) ∧
      ((keyword callee params b k x).1 = .ok () → (keyword callee params b k x).2 =
        ⟨⟨none, true⟩, Fields.set b.fields field
          ((Field.variadic v).add (Expr.keywordNode (k, x))).2⟩) := by
  obtain ⟨itemType, slots⟩ := v
  obtain rfl : itemType = .plain .keyword := hitem
  have hnone : params.any (Parameter.takesKeyword k) = false := by
    simpa [← any_takesKeyword_iff] using hmem
  have hadd : (Field.variadic ⟨.plain .keyword, slots⟩).add (Expr.keywordNode (k, x)) =
      (.ok (), .variadic ⟨.plain .keyword,
        slots ++ [.holding (.plain .keyword) (Expr.keywordNode (k, x))]⟩) := rfl
  have hany : ((slots.filterMap Slot.expr?).any fun e => e.keywordName? == some k) = false ↔
      ∀ e ∈ (Variadic.mk (.plain .keyword) slots).exprs, e.keywordName? ≠ some k := by
    simp only [Variadic.exprs, List.any_eq_false, beq_iff_eq, ne_eq]
  rw [keyword_collected hnone hcollects hfield, hadd, ← hany]
  cases (slots.filterMap Slot.expr?).any fun e => e.keywordName? == some k with
  | true => simp
  | false => cases x.valueType.fits (.plain .object) <;> simp [keyed, offered]

end Binding

end SlotTree

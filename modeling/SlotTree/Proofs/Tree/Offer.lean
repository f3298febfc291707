import SlotTree.Proofs.Tree.Bind
import SlotTree.Proofs.Tree.Edits

/-!
# Offering an argument

An argument is passed by position or by keyword (`Offer`), and it is taken or refused.
What a refusal leaves is the same in all the ways in which a binding can refuse: the
fields are as they were, and the binder is not.  `Offer.mark` is what an offer does to
the binder whether it is taken or not: the callable counts as invoked, and after a
keyword no positional argument is awaited any more.

Here are the facts about one offer that do not depend on what is offered before or
after it: which fault a refusal gives, what it leaves (`Binding.offer_error`), and that
for a callable without positional parameters nothing but `Offer.mark` ever happens to
the binder (`Binding.binder_offer`).
-/

namespace SlotTree

/-! ## Looking up what was written -/

/-- A field that is written is found under its name, and every other one as before. -/
theorem Fields.get?_set {fields : Fields} {name : String} {f g : Field}
    (h : get? fields name = some g) (other : String) :
    get? (set fields name f) other = if other = name then some f else get? fields other := by
  induction fields with
  | nil => cases h
  | cons entry rest ih =>
    obtain ⟨key, old⟩ := entry
    rw [get?] at h
    rw [set]
    by_cases hkey : key = name
    · subst hkey
      by_cases hother : other = key
      · simp [get?, hother]
      · simp [get?, hother, Ne.symm hother]
    · have hrest : get? rest name = some g := by simpa [hkey] using h
      by_cases hother : key = other
      · subst hother
        simp [get?, hkey]
      · simp [get?, hkey, hother, ih hrest]

/-! ## Why an expression is refused -/

/-- The fault of a refused expression names the type of the slot. -/
theorem Slot.cause_of_add_error {s : Slot} {e : Expr} {f : Fault}
    (h : (s.add e).1 = .error f) :
    f.cause = .literalSlot s.type.name ∨ f.cause = .slotOccupied s.type.name ∨
      f.cause = .typeMismatch s.type.name e.valueType.name := by
  replace h : (s.place e).1 = .error f := error_of_map_error h
  unfold place at h
  split at h
  · exact Or.inl (by rw [← Except.error.inj h])
  split at h
  · exact Or.inr (Or.inl (by rw [← Except.error.inj h]))
  split at h
  · exact Or.inr (Or.inr (by rw [← Except.error.inj h]; rfl))
  · cases h

/-- A refused item is refused by a fresh slot of the item type. -/
theorem Variadic.push_error {v : Variadic} {e : Expr} {f : Fault}
    (h : (v.push e).1 = .error f) : ((Slot.ofType v.itemType).add e).1 = .error f := by
  unfold push at h
  split at h
  · cases h
  · next hadd => rw [hadd, Except.error.inj h]

/-- Being told about the argument instead of the slot does not make it a matter of the
order of arguments. -/
theorem Fault.asArgumentFault_cause_ne {s : Slot} {e : Expr} {f : Fault} (name : String)
    (h : (s.add e).1 = .error f) :
    f.cause ≠ .positionalAfterKeyword ∧
      (f.asArgumentFault name).cause ≠ .positionalAfterKeyword := by
  rcases Slot.cause_of_add_error h with hcause | hcause | hcause <;>
    simp [asArgumentFault, hcause]

/-! ## One offer -/

/-- An argument as it is passed. -/
inductive Offer where
  | positional (value : Expr)
  | keyword (name : String) (value : Expr)

namespace Offer

/-- Whether the argument is passed by keyword. -/
def isKeyword : Offer → Bool
  | positional _ => false
  | keyword _ _ => true

/-- What becomes of the binder by the offer alone. -/
def mark (a : Offer) (b : Binder) : Binder :=
  { next := if a.isKeyword then none else b.next, invoked := true }

end Offer

namespace Binding

/-- Binds an argument the way it is passed. -/
def offer (callee : String) (params : List Parameter) (b : Binding) :
    Offer → Edited Binding Unit
  | .positional value => positional callee params b value
  | .keyword name value => keyword callee params b name value

variable {callee : String} {params : List Parameter} {b : Binding} {a : Offer} {f : Fault}

theorem positional_cases (callee : String) (params : List Parameter) (b : Binding)
    (value : Expr) :
    (∃ f, positional callee params b value = (.error f, b.offered) ∧
      (f.cause = .positionalAfterKeyword ↔ b.binder.next = none)) ∨
    (∃ fields, positional callee params b value = (.ok (), ⟨b.offered.binder, fields⟩)) ∨
    ∃ index name fields, params[index]? = some (.positional name) ∧
      positional callee params b value = (.ok (), ⟨⟨some (index + 1), true⟩, fields⟩) := by
  cases hnext : b.binder.next with
  | none => exact Or.inl ⟨_, positional_closed hnext, by simp [Fault.detached]⟩
  | some index =>
    have hnext' : b.offered.binder.next = some index := hnext
    simp only [positional, hnext']
    split
    · exact Or.inl ⟨_, rfl, by simp [Fault.detached]⟩
    · next param hparam =>
      split
      · next name slot hslot =>
        split
        · exact Or.inr (Or.inr ⟨index, name, _, hparam, rfl⟩)
        · next fault _ hadd =>
          have hcause := Fault.asArgumentFault_cause_ne name (congrArg Prod.fst hadd)
          exact Or.inl ⟨_, rfl, by simp [hcause.2]⟩
      · next name rest hrest =>
        split
        · exact Or.inr (Or.inl ⟨_, rfl⟩)
        · next fault _ hpush =>
          have hcause := Fault.asArgumentFault_cause_ne name
            (Variadic.push_error (congrArg Prod.fst hpush))
          exact Or.inl ⟨_, rfl, by simp [hcause.2]⟩
      · exact Or.inl ⟨_, rfl, by simp [Fault.detached]⟩

theorem keyword_cases (callee : String) (params : List Parameter) (b : Binding) (name : String)
    (value : Expr) :
    (∃ f, keyword callee params b name value = (.error f, b.keyed) ∧
      f.cause ≠ .positionalAfterKeyword) ∨
    ∃ fields, keyword callee params b name value = (.ok (), ⟨⟨none, true⟩, fields⟩) := by
  simp only [keyword]
  split
  · split
    · next slot hslot =>
      split
      · exact Or.inl ⟨_, rfl, by simp [Fault.detached]⟩
      split
      · exact Or.inr ⟨_, rfl⟩
      · next fault _ hadd =>
        exact Or.inl ⟨_, rfl, (Fault.asArgumentFault_cause_ne name (congrArg Prod.fst hadd)).2⟩
    · exact Or.inl ⟨_, rfl, by simp [Fault.detached]⟩
  · split
    · exact Or.inl ⟨_, rfl, by simp [Fault.detached]⟩
    split
    · next rest hrest =>
      split
      · exact Or.inl ⟨_, rfl, by simp [Fault.detached]⟩
      split
      · next fault hnode =>
        refine Or.inl ⟨_, rfl, ?_⟩
        rw [Expr.keywordOf] at hnode
        split at hnode
        · cases hnode
        · next hadd =>
          obtain rfl := Except.error.inj hnode
          exact (Fault.asArgumentFault_cause_ne name (congrArg Prod.fst hadd)).1
      · split
        · exact Or.inr ⟨_, rfl⟩
        · next fault _ hpush =>
          exact Or.inl ⟨_, rfl, (Fault.asArgumentFault_cause_ne name
            (Variadic.push_error (congrArg Prod.fst hpush))).1⟩
    · exact Or.inl ⟨_, rfl, by simp [Fault.detached]⟩

/-- **What an offer can lead to**: it is refused, it is taken, or it is taken by a
positional parameter and the next one is awaited. -/
theorem offer_cases (callee : String) (params : List Parameter) (b : Binding) (a : Offer) :
    (∃ f, offer callee params b a = (.error f, ⟨a.mark b.binder, b.fields⟩) ∧
      (f.cause = .positionalAfterKeyword ↔ a.isKeyword = false ∧ b.binder.next = none)) ∨
    (∃ fields, offer callee params b a = (.ok (), ⟨a.mark b.binder, fields⟩)) ∨
    ∃ index name fields, params[index]? = some (.positional name) ∧
      offer callee params b a = (.ok (), ⟨⟨some (index + 1), true⟩, fields⟩) := by
  cases a with
  | positional value =>
    rcases positional_cases callee params b value with ⟨f, hpositional, hcause⟩ | htaken
    · exact Or.inl ⟨f, hpositional, by simp [hcause, Offer.isKeyword]⟩
    · exact Or.inr htaken
  | keyword name value =>
    rcases keyword_cases callee params b name value with ⟨f, hkeyword, hcause⟩ | htaken
    · exact Or.inl ⟨f, hkeyword, by simp [hcause, Offer.isKeyword]⟩
    · exact Or.inr (Or.inl htaken)

/-- A refused argument leaves the fields as they were and the binder marked. -/
theorem offer_error (h : (offer callee params b a).1 = .error f) :
    (offer callee params b a).2 = ⟨a.mark b.binder, b.fields⟩ := by
  rcases offer_cases callee params b a with ⟨g, hoffer, -⟩ | ⟨fields, hoffer⟩ |
    ⟨index, name, fields, -, hoffer⟩
  · rw [hoffer]
  · rw [hoffer] at h
    cases h
  · rw [hoffer] at h
    cases h

/-- An argument is refused for its place exactly if it is passed by position after a
keyword was offered. -/
theorem cause_of_offer_error (h : (offer callee params b a).1 = .error f) :
    f.cause = .positionalAfterKeyword ↔ a.isKeyword = false ∧ b.binder.next = none := by
  rcases offer_cases callee params b a with ⟨g, hoffer, hcause⟩ | ⟨fields, hoffer⟩ |
    ⟨index, name, fields, -, hoffer⟩
  · rw [hoffer] at h
    rwa [← Except.error.inj h]
  · rw [hoffer] at h
    cases h
  · rw [hoffer] at h
    cases h

/-- Without positional parameters there is no place to count, and the binder is marked
and nothing else. -/
theorem binder_offer (hparams : ∀ name, .positional name ∉ params) :
    (offer callee params b a).2.binder = a.mark b.binder := by
  rcases offer_cases callee params b a with ⟨g, hoffer, -⟩ | ⟨fields, hoffer⟩ |
    ⟨index, name, fields, hparam, -⟩
  · rw [hoffer]
  · rw [hoffer]
  · exact absurd (List.mem_of_getElem? hparam) (hparams name)

end Binding
end SlotTree

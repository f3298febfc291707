import SlotTree.Proofs.Tree.Offer

/-!
# What a refused argument leaves behind

A callable that refuses an argument keeps all its fields, and one would expect it to be
as it was.  It is not: the binder is marked before the argument is looked at.  A refused
argument makes a mere mention of `print` count as a call, so that it is written
`print()`; and a refused keyword argument bars all positional arguments after it, also
on a callable to which nothing was ever bound.

`CallStep` lists what can be done to a callable: an argument is offered, the callable is
marked as invoked, or one of its fields is edited.  `CallStep.binder?_run` says what the
binder is after any number of steps, and it depends on what was *offered* alone.  From
this, `refused_argument_marks` draws the whole account of a refusal.
-/

namespace SlotTree

namespace Expr

/-- The binder of an expression that takes arguments. -/
def binder? (e : Expr) : Option Binder := e.signature?.map Signature.binder

/-- Offers an argument, if the expression takes arguments at all. -/
def offer? (e : Expr) : Offer → Option (Edited Expr Unit)
  | .positional value => e.addArgument? value
  | .keyword name value => e.addKeyword? name value

theorem isInvoked?_eq (e : Expr) : e.isInvoked? = e.binder?.map Binder.invoked := by
  simp [isInvoked?, binder?, Function.comp_def]

@[simp] theorem binder?_setBinder (e : Expr) (b : Binder) :
    (e.setBinder b).binder? = e.binder?.map fun _ => b := by
  cases e <;> rfl

@[simp] theorem binder?_setField (e : Expr) (name : String) (f : Field) :
    (e.setField name f).binder? = e.binder? := by
  unfold setField
  split <;> rfl

@[simp] theorem binder?_setFields (e : Expr) (fields : Fields) :
    (e.setFields fields).binder? = e.binder? := by
  induction fields generalizing e with
  | nil => rfl
  | cons entry rest ih => exact (ih _).trans (binder?_setField e entry.1 entry.2)

/-- Writing a field back as it stands changes nothing. -/
theorem setField_of_mem {e : Expr} {entry : String × Field} (h : entry ∈ e.fields) :
    e.setField entry.1 entry.2 = e := by
  cases e <;> simp only [fields, List.mem_cons, List.not_mem_nil, or_false] at h
  all_goals rcases h with rfl | rfl | rfl | rfl | rfl
  all_goals rfl

/-- Writing fields back as they stand changes nothing. -/
theorem setFields_of_subset {e : Expr} {entries : Fields} (h : ∀ entry ∈ entries, entry ∈ e.fields) :
    e.setFields entries = e := by
  induction entries with
  | nil => rfl
  | cons entry rest ih =>
    have hrest := ih fun x hx => h x (List.mem_cons_of_mem _ hx)
    rw [setFields, List.foldl_cons, setField_of_mem (h entry List.mem_cons_self)]
    exact hrest

/-- A binder that is set is another state exactly if it is another binder. -/
theorem setBinder_eq_self_iff {e : Expr} {b b' : Binder} (h : e.binder? = some b) :
    e.setBinder b' = e ↔ b' = b := by
  cases e <;> simp_all [binder?, signature?, setBinder]

/-- A callable offers an argument to its parameters under the fields that may take it. -/
theorem offer?_eq {e : Expr} {s : Signature} (hs : e.signature? = some s) (a : Offer) :
    ∃ names, e.offer? a = some (e.withBinding
      (Binding.offer s.callee s.params ⟨s.binder, e.fieldsNamed names⟩ a)) := by
  cases a with
  | positional value => exact ⟨s.positionalFields, by simp [offer?, addArgument?, hs, Binding.offer]⟩
  | keyword name value => exact ⟨s.keywordFields, by simp [offer?, addKeyword?, hs, Binding.offer]⟩

/-- No callable has parameters that a single positional argument fills. -/
theorem positional_not_mem_params {e : Expr} {s : Signature} (h : e.signature? = some s)
    (name : String) : .positional name ∉ s.params := by
  cases e <;> simp only [signature?, Option.some.injEq, reduceCtorEq] at h <;> subst h <;> simp

/-- A refused argument changes the binder and nothing else. -/
theorem offer?_error {e left : Expr} {b : Binder} {a : Offer} {f : Fault}
    (hb : e.binder? = some b) (h : e.offer? a = some (.error f, left)) :
    left = e.setBinder (a.mark b) ∧
      (f.cause = .positionalAfterKeyword ↔ a.isKeyword = false ∧ b.next = none) := by
  obtain ⟨s, hs, rfl⟩ := Option.map_eq_some_iff.mp hb
  obtain ⟨names, hoffer⟩ := offer?_eq hs a
  obtain ⟨hrefused, rfl⟩ := Prod.mk.inj (Option.some.inj (hoffer.symm.trans h))
  have hkept : e.setFields (e.fieldsNamed names) = e :=
    setFields_of_subset fun entry hentry => (List.mem_filter.mp hentry).1
  refine ⟨?_, Binding.cause_of_offer_error hrefused⟩
  rw [Binding.offer_error hrefused, hkept]

/-- An argument marks the binder of a callable, whether it is taken or refused. -/
theorem binder?_offer? {e left : Expr} {b : Binder} {a : Offer} {outcome : Except Fault Unit}
    (hb : e.binder? = some b) (h : e.offer? a = some (outcome, left)) :
    left.binder? = some (a.mark b) := by
  obtain ⟨s, hs, rfl⟩ := Option.map_eq_some_iff.mp hb
  obtain ⟨names, hoffer⟩ := offer?_eq hs a
  obtain ⟨-, rfl⟩ := Prod.mk.inj (Option.some.inj (hoffer.symm.trans h))
  rw [binder?_setBinder, binder?_setFields, hb,
    Binding.binder_offer (positional_not_mem_params hs)]
  rfl

end Expr

/-! ## The life of a callable -/

/-- Something that is done to a callable. -/
inductive CallStep where
  | offer (a : Offer)
  | invoke
  /-- One of the fields is edited, whatever comes out. -/
  | edit (name : String) (f : Field)

namespace CallStep

/-- Whether an argument is offered by keyword. -/
def passesKeyword : CallStep → Bool
  | offer a => a.isKeyword
  | invoke | edit _ _ => false

/-- Whether an argument is offered at all, or the callable is marked as invoked. -/
def invokes : CallStep → Bool
  | offer _ | invoke => true
  | edit _ _ => false

/-- Carries out a step. -/
def perform (e : Expr) : CallStep → Edited Expr Unit
  | offer a => (e.offer? a).getD (.ok (), e)
  | invoke => (.ok (), e.markInvoked)
  | edit name f => (.ok (), e.setField name f)

/-- Carries out steps one after the other, whether they succeed or not. -/
def run (e : Expr) (steps : List CallStep) : Expr :=
  steps.foldl (fun e step => (perform e step).2) e

/-- What a step does to the binder. -/
def mark (step : CallStep) (b : Binder) : Binder :=
  { next := if step.passesKeyword then none else b.next, invoked := b.invoked || step.invokes }

theorem binder?_perform {e : Expr} {b : Binder} (hb : e.binder? = some b) (step : CallStep) :
    (perform e step).2.binder? = some (step.mark b) := by
  cases step with
  | offer a =>
    obtain ⟨s, hs, -⟩ := Option.map_eq_some_iff.mp hb
    obtain ⟨names, hoffer⟩ := Expr.offer?_eq hs a
    rw [perform, hoffer, Option.getD_some]
    refine (Expr.binder?_offer? hb hoffer).trans ?_
    rw [mark, invokes, Bool.or_true]
    rfl
  | invoke =>
    obtain ⟨s, hs, rfl⟩ := Option.map_eq_some_iff.mp hb
    simp [perform, Expr.markInvoked, hs, hb, mark, passesKeyword, invokes]
  | edit name f => simp [perform, hb, mark, passesKeyword, invokes]

/-- **The binder remembers what was offered**, not what was bound. -/
theorem binder?_run {e : Expr} {b : Binder} (hb : e.binder? = some b) (steps : List CallStep) :
    (run e steps).binder? =
      some { next := if steps.any passesKeyword then none else b.next
             invoked := b.invoked || steps.any invokes } := by
  induction steps generalizing e b with
  | nil => simpa [run] using hb
  | cons step steps ih =>
    rw [run, List.foldl_cons]
    refine (ih (binder?_perform hb step)).trans ?_
    cases hkeyword : step.passesKeyword <;> simp [mark, hkeyword, Bool.or_assoc]

end CallStep

open CallStep (run passesKeyword invokes)

/-- **A refused argument leaves its mark.**  The fields stay as they were, but the binder
has the argument on record: the callable is as it was only if it was invoked before, and,
for a keyword, if one was offered before.  So an argument comes too late once a keyword
was offered, and a callable counts as invoked once anything was, bound or not. -/
theorem refused_argument_marks {start left : Expr} {a : Offer} {f : Fault}
    (hfresh : start.binder? = some {}) (steps : List CallStep)
    (hrefused : (run start steps).offer? a = some (.error f, left)) :
    left.fields = (run start steps).fields ∧
      left = (run start steps).setBinder
        { next := if a.isKeyword || steps.any passesKeyword then none else some 0
          invoked := true } ∧
      (left = run start steps ↔
        (∃ step ∈ steps, step.invokes = true) ∧
          (a.isKeyword = true → ∃ step ∈ steps, step.passesKeyword = true)) ∧
      (f.cause = .positionalAfterKeyword ↔
        a.isKeyword = false ∧ ∃ step ∈ steps, step.passesKeyword = true) ∧
      ((run start steps).isInvoked? = some true ↔ ∃ step ∈ steps, step.invokes = true) := by
  have hb := CallStep.binder?_run hfresh steps
  obtain ⟨hleft, hcause⟩ := Expr.offer?_error hb hrefused
  have hmark : a.mark ⟨if steps.any passesKeyword then none else some 0,
      false || steps.any invokes⟩ =
        ⟨if a.isKeyword || steps.any passesKeyword then none else some 0, true⟩ := by
    cases hkeyword : a.isKeyword <;> simp [Offer.mark, hkeyword]
  rw [hmark] at hleft
  refine ⟨by rw [hleft, Part.fields_setBinder], hleft, ?_, ?_, ?_⟩
  · rw [hleft, Expr.setBinder_eq_self_iff hb]
    rw [← List.any_eq_true, ← List.any_eq_true]
    cases a.isKeyword <;> cases steps.any passesKeyword <;>
      cases steps.any invokes <;> simp
  · rw [hcause]
    simp
  · rw [Expr.isInvoked?_eq, hb]
    simp

/-- `print` is offered a separator of the wrong type, and then something to print.  The
second argument comes too late, and only its refusal leaves `print` as it was. -/
theorem refused_argument_marks_print :
    let start := Expr.emptyPrint .detached
    let steps := [CallStep.offer (.keyword "sep" (.ofLiteral (.int 1) .detached))]
    let left := start.setBinder { next := none, invoked := true }
    start.binder? = some {} ∧
      (run start steps).offer? (.positional (.ofLiteral (.int 2) .detached)) =
        some (.error (.detached .positionalAfterKeyword), left) ∧
      left = run start steps := by
  intro start steps left
  have hfresh : start.binder? = some {} := rfl
  have hrefused : (run start steps).offer? (.positional (.ofLiteral (.int 2) .detached)) =
      some (.error (.detached .positionalAfterKeyword), left) := rfl
  obtain ⟨-, -, hunchanged, -⟩ := refused_argument_marks hfresh steps hrefused
  exact ⟨hfresh, hrefused, hunchanged.mpr ⟨⟨_, List.mem_cons_self, rfl⟩, by simp [Offer.isKeyword]⟩⟩

/-- The first of these refusals changes a callable to which nothing was ever bound: it
counts as invoked, and its positional arguments have come to an end. -/
theorem refused_keyword_changes_print :
    let start := Expr.emptyPrint .detached
    let left := start.setBinder { next := none, invoked := true }
    start.offer? (.keyword "sep" (.ofLiteral (.int 1) .detached)) =
        some (.error ⟨.argumentMismatch "sep" "str" "Literal[int]", .detached⟩, left) ∧
      left.fields = start.fields ∧ start.isInvoked? = some false ∧ left.isInvoked? = some true ∧
      left.offer? (.positional (.ofLiteral (.int 2) .detached)) =
        some (.error (.detached .positionalAfterKeyword), left) := by
  refine ⟨rfl, rfl, rfl, rfl, rfl⟩

end SlotTree

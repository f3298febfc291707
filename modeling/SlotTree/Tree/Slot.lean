import SlotTree.Fault
import SlotTree.Tree.Expr
import SlotTree.Ty.Fits

/-!
# Editing slots

The operations by which an editor and the reader of scripts fill slots.  Each returns
the state that it leaves, also where it fails, because a failing operation is not
always without effect: `replace` takes the old expression out before the new one is
offered.

The order of the checks is part of the behaviour.  An expression is refused first
because the slot is a literal one, then because the slot is occupied, and only then
because of its type; the fault points to where the expression starts.

`constrain` re-types a slot whatever it holds.  An expression that no longer fits is
taken out and handed back; a raw value always stays, even under a type that could not
hold it.
-/

namespace SlotTree
namespace Slot

/-- Whether the value of an expression fits the type of the slot. -/
def accepts (s : Slot) (e : Expr) : Bool := e.valueType.fits s.type

/-- The fault of an expression that does not fit. -/
def mismatch (s : Slot) (e : Expr) : Fault :=
  ⟨.typeMismatch s.type.name e.valueType.name, e.span.start⟩

/-- Writes a raw value into a literal slot of its class. -/
def setLiteral (s : Slot) (v : Literal) : Edited Slot Unit :=
  if !s.isLiteralSlot then (.error (.detached (.notLiteralSlot s.type.name)), s)
  else if v.slotClass != s.type.head then
    (.error (.detached (.literalMismatch s.type.name v.shown)), s)
  else (.ok (), { s with content := .literal v })

/-- Takes the expression out of the slot. A raw value stays, and a constrained slot keeps
its type. -/
def remove (s : Slot) : Option Expr × Slot :=
  match s.content with
  | .expr e => (some e, { s with content := .empty })
  | _ => (none, s)

/-- Re-types the slot and takes out an expression that no longer fits. -/
def constrain (s : Slot) (t : Ty) : Option Expr × Slot :=
  let typed := { s with type := t }
  match s.content with
  | .expr e => if typed.accepts e then (none, typed) else typed.remove
  | _ => (none, typed)

/-- Re-types the constrained slot after the type that the slot holds, if it holds one. -/
def applyConstraint (s : Slot) : Option Expr × Slot :=
  match s.expr?.bind Expr.asType?, s.constraint with
  | some t, some owned =>
    let (evicted, owned) := owned.constrain t
    (evicted, { s with constraint := some owned })
  | _, _ => (none, s)

/-- Makes the slot constrain another one, which only a slot of type `type` can do.
Answers the expression that no longer fits the other slot. -/
def setConstraint (s owned : Slot) : Edited Slot (Option Expr) :=
  if s.type.head != .type then (.error (.detached (.constraintNotAllowed s.type.name)), s)
  else
    let (evicted, s) := applyConstraint { s with constraint := some owned }
    (.ok evicted, s)

/-- Places an expression in an empty slot that is not a literal one. Answers what the
constrained slot had to give up. -/
def place (s : Slot) (e : Expr) : Edited Slot (Option Expr) :=
  if s.isLiteralSlot then (.error ⟨.literalSlot s.type.name, e.span.start⟩, s)
  else if s.isOccupied then (.error ⟨.slotOccupied s.type.name, e.span.start⟩, s)
  else if !s.accepts e then (.error (s.mismatch e), s)
  else
    let (evicted, s) := applyConstraint { s with content := .expr e }
    (.ok evicted, s)

/-- Places an expression in an empty slot that is not a literal one. -/
def add (s : Slot) (e : Expr) : Edited Slot Unit :=
  let (outcome, s) := s.place e
  (outcome.map fun _ => (), s)

/-- Swaps the expression in the slot for another one and answers the old one. -/
def replace (s : Slot) (e : Expr) : Edited Slot (Option Expr) :=
  if !s.isLiteralSlot && !s.accepts e then (.error (s.mismatch e), s)
  else
    let (previous, s) := s.remove
    let (outcome, s) := s.add e
    (outcome.map fun _ => previous, s)

/-- Edits the constrained slot, if there is one. -/
def editConstraint {α : Type} (s : Slot) (edit : Slot → α × Slot) : Option (α × Slot) :=
  s.constraint.map fun owned =>
    let (answer, owned) := edit owned
    (answer, { s with constraint := some owned })

/-- A refused expression leaves the slot as it was. -/
theorem place_error {s s' : Slot} {e : Expr} {f : Fault}
    (h : s.place e = (.error f, s')) : s' = s := by
  unfold place at h
  grind

end Slot
end SlotTree

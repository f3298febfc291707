import SlotTree.Tree.Slot

/-!
# Editing rest fields

A rest field grows by one slot of its item type for every expression that is pushed,
and a refused expression leaves no empty slot behind.  Slots that are already there are
edited like any other slot, also to a type that is not the item type.
-/

namespace SlotTree
namespace Variadic

/-- Appends a slot of the item type that holds the expression. -/
def push (v : Variadic) (e : Expr) : Edited Variadic Unit :=
  match (Slot.ofType v.itemType).add e with
  | (.ok _, slot) => (.ok (), { v with slots := v.slots ++ [slot] })
  | (.error fault, _) => (.error fault, v)

/-- Takes out the slot at an index. -/
def remove (v : Variadic) (index : Nat) : Edited Variadic Slot :=
  match v.slots[index]? with
  | some slot => (.ok slot, { v with slots := v.slots.eraseIdx index })
  | none => (.error (.detached (.indexOutOfRange index v.slots.length)), v)

/-- The slot at an index. -/
def get? (v : Variadic) (index : Nat) : Option Slot := v.slots[index]?

/-- Edits the slot at an index, if there is one. -/
def editAt {α : Type} (v : Variadic) (index : Nat) (edit : Slot → α × Slot) :
    Option (α × Variadic) :=
  (v.get? index).map fun slot =>
    let (answer, slot) := edit slot
    (answer, { v with slots := v.slots.set index slot })

end Variadic
end SlotTree

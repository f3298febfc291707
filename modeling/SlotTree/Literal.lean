import SlotTree.Decimal.Style
import SlotTree.Text.Quoted
import SlotTree.Ty.Basic

/-!
# Literal values

A literal value is a value that a script writes down: a truth value, `None`, a whole
number of 64 bits, a floating-point number or a text.  Each belongs to one literal
class, and a slot holds a raw value only if it has that class.
-/

namespace SlotTree

/-- A raw value. -/
inductive Literal where
  | bool (value : Bool)
  | none
  | int (value : Int64)
  | float (value : Binary64)
  | str (value : String)
  deriving DecidableEq, Repr, Inhabited

namespace Literal

/-- The class of slots that hold the value. -/
def slotClass : Literal → Class
  | bool _ => .literalBool
  | none => .literalNone
  | int _ => .literalInt
  | float _ => .literalFloat
  | str _ => .literalStr

/-- The value as a diagnostic shows it. -/
def shown : Literal → String
  | bool b => if b then "True" else "False"
  | none => "None"
  | int n => toString n.toInt
  | float x => x.shown
  | str s => Text.quoted s

end Literal
end SlotTree

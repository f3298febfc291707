import SlotTree.Tree.Variadic

/-!
# Fields by name

An editor addresses the parts of a node by name.  A field is a slot or a rest field; a
node lists its fields in a fixed order (`Expr.fields`), and a field can be looked up and
written back by its name.  Looking up what was just written gives it back, which is the
one law that makes `field?` and `setField` a pair; for a name that the node does not
have, or a field of the other kind, writing does nothing.
-/

namespace SlotTree

/-- A named part of a node. -/
inductive Field where
  | slot (slot : Slot)
  | variadic (variadic : Variadic)

/-- The fields of a node with their names, in order. -/
abbrev Fields : Type := List (String × Field)

namespace Field

/-- Places an expression in a slot, or appends it to a rest field. -/
def add (f : Field) (e : Expr) : Edited Field Unit :=
  match f with
  | slot s =>
    let (outcome, s) := s.add e
    (outcome, slot s)
  | variadic v =>
    let (outcome, v) := v.push e
    (outcome, variadic v)

/-- The slots of a field, in order. -/
def slots : Field → List Slot
  | slot s => [s]
  | variadic v => v.slots

/-- The expressions in a field, in order. -/
def exprs (f : Field) : List Expr := f.slots.filterMap Slot.expr?

end Field

namespace Fields

/-- The first field of the given name. -/
def get? (fields : Fields) (name : String) : Option Field :=
  match fields with
  | [] => none
  | (key, f) :: rest => if key == name then some f else get? rest name

/-- Overwrites the first field of the given name. -/
def set (fields : Fields) (name : String) (f : Field) : Fields :=
  match fields with
  | [] => []
  | (key, g) :: rest => if key == name then (key, f) :: rest else (key, g) :: set rest name f

end Fields

namespace Expr

/-- The fields of an expression. -/
def fields : Expr → Fields
  | literal _ value _ => [("value", .slot value)]
  | load id _ => [("id", .slot id)]
  | keyword arg value _ => [("arg", .slot arg), ("value", .slot value)]
  | type _ _ => []
  | call func args keywords _ _ =>
    [("func", .slot func), ("args", .variadic args), ("keywords", .variadic keywords)]
  | print objects sep ending file flush _ _ =>
    [("objects", .variadic objects), ("sep", .slot sep), ("end", .slot ending),
      ("file", .slot file), ("flush", .slot flush)]

/-- The field of the given name. -/
def field? (e : Expr) (name : String) : Option Field := Fields.get? e.fields name

/-- Writes a field back under its name. -/
def setField (e : Expr) (name : String) (f : Field) : Expr :=
  match e, name, f with
  | literal kind _ span, "value", .slot s => literal kind s span
  | load _ span, "id", .slot s => load s span
  | keyword _ value span, "arg", .slot s => keyword s value span
  | keyword arg _ span, "value", .slot s => keyword arg s span
  | call _ args keywords b span, "func", .slot s => call s args keywords b span
  | call func _ keywords b span, "args", .variadic v => call func v keywords b span
  | call func args _ b span, "keywords", .variadic v => call func args v b span
  | print _ sep ending file flush b span, "objects", .variadic v =>
    print v sep ending file flush b span
  | print objects _ ending file flush b span, "sep", .slot s =>
    print objects s ending file flush b span
  | print objects sep _ file flush b span, "end", .slot s =>
    print objects sep s file flush b span
  | print objects sep ending _ flush b span, "file", .slot s =>
    print objects sep ending s flush b span
  | print objects sep ending file _ b span, "flush", .slot s =>
    print objects sep ending file s b span
  | e, _, _ => e

/-- Writes several fields back. -/
def setFields (e : Expr) (fields : Fields) : Expr :=
  fields.foldl (fun e entry => e.setField entry.1 entry.2) e

/-- Places an expression in the named field. -/
def addToField (e : Expr) (name : String) (x : Expr) : Edited Expr Unit :=
  match e.field? name with
  | none => (.error (.detached (.unknownField e.nodeName name)), e)
  | some f =>
    let (outcome, f) := f.add x
    (outcome, e.setField name f)

/-- The expressions directly below, field by field. -/
def children (e : Expr) : List Expr := e.fields.flatMap fun entry => entry.2.exprs

end Expr
end SlotTree

import SlotTree.Json
import SlotTree.Tree.Node

/-!
# The tree as a JSON document

Every node is an object with its kind under `node` and its fields under `fields`.  A
raw value is a JSON scalar, an empty slot is `null`, a rest field is an array, and a type
is its name.  The statements of a block stand under `body`.

The recursion goes over the tree itself and not over its list of children, because the
document keeps what a list of children forgets: which field an expression stands in, and
which slots are empty.
-/

namespace SlotTree

/-- A raw value as a JSON scalar. -/
def Literal.dump : Literal → Json
  | .bool b => .bool b
  | .none => .null
  | .int n => .int n.toInt
  | .float x => .float x
  | .str s => .str s

/-- A node as a JSON object. -/
def nodeObject (kind : String) (fields : List (String × Json)) : Json :=
  .obj [("node", .str kind), ("fields", .obj fields)]

mutual

/-- An expression as a JSON object. -/
def Expr.dump : Expr → Json
  | .literal kind value _ => nodeObject kind.nodeName [("value", value.dump)]
  | .load id _ => nodeObject "VariableLoader" [("id", id.dump)]
  | .keyword arg value _ => nodeObject "Keyword" [("arg", arg.dump), ("value", value.dump)]
  | .type t _ => nodeObject "Type" [("type", .str t.name)]
  | .call func ⟨_, args⟩ ⟨_, keywords⟩ _ _ =>
    nodeObject "Call"
      [("func", func.dump), ("args", .arr (dumpSlots args)), ("keywords", .arr (dumpSlots keywords))]
  | .print ⟨_, objects⟩ sep ending file flush _ _ =>
    nodeObject "print"
      [("objects", .arr (dumpSlots objects)), ("sep", sep.dump), ("end", ending.dump),
        ("file", file.dump), ("flush", flush.dump)]

/-- What a slot holds, as JSON. -/
def Slot.dump : Slot → Json
  | ⟨_, .empty, _⟩ => .null
  | ⟨_, .literal v, _⟩ => v.dump
  | ⟨_, .expr e, _⟩ => e.dump

/-- The slots of a rest field, as JSON. -/
def dumpSlots : List Slot → List Json
  | [] => []
  | s :: ss => s.dump :: dumpSlots ss

end

mutual

/-- A statement as a JSON object. -/
def Stmt.dump : Stmt → Json
  | .block ⟨body, _⟩ => nodeObject "CodeBlock" [("body", .arr (dumpStmts body))]
  | .expression value _ => nodeObject "ExpressionStmt" [("value", value.dump)]
  | .declaration id type _ =>
    nodeObject "VariableDeclaration" [("id", id.dump), ("type", type.dump)]
  | .definition id type _ =>
    nodeObject "VariableDefinition"
      (("id", id.dump) :: ("type", type.dump) ::
        match type.constraint with
        | some value => [("value", value.dump)]
        | none => [])

/-- The statements of a block, as JSON. -/
def dumpStmts : List Stmt → List Json
  | [] => []
  | s :: ss => s.dump :: dumpStmts ss

end

/-- A block as a JSON object. -/
def Block.dump (b : Block) : Json := Stmt.dump (.block b)

/-- A node as a JSON object. -/
def Node.dump : Node → Json
  | .stmt s => s.dump
  | .expr e => e.dump

end SlotTree

import SlotTree.Tree.Field

/-!
# Statements

A statement is a block of statements, an expression whose value is discarded, the
declaration of a variable (`x: int`) or its definition (`x: int = 1`).

A definition has two slots of its own, the name and the type.  The slot of its value is
owned by the type slot, which constrains it: whoever edits the declared type, in
whatever way, re-types the value along with it.  The value slot is therefore not stored a
second time; `valueSlot?` looks it up, and it is gone if the type slot lost it.

Both kinds of variable statements start out with the declared type `object`.
-/

namespace SlotTree

mutual

/-- A statement. -/
inductive Stmt where
  /-- A block as a statement of another one. -/
  | block (block : Block)
  /-- Evaluates an expression and discards the value. -/
  | expression (value : Slot) (span : Span)
  /-- Declares a variable without giving it a value. -/
  | declaration (id type : Slot) (span : Span)
  /-- Declares a variable and gives it a value. -/
  | definition (id type : Slot) (span : Span)

/-- An ordered list of statements. -/
structure Block where
  body : List Stmt
  span : Span

end

namespace Stmt

/-- The type slot of a fresh variable statement: it holds `object`. -/
def objectTypeSlot : Slot :=
  { type := .plain .type
    content := .expr (.type (.plain .object) .detached)
    constraint := none }

/-- An expression statement. -/
def ofExpr (value : Expr) (span : Span) : Except Fault Stmt :=
  match Slot.object.add value with
  | (.ok _, slot) => .ok (.expression slot span)
  | (.error fault, _) => .error fault

/-- A fresh declaration. -/
def declare (id : String) (span : Span) : Stmt :=
  .declaration (.ofLiteral (.str id)) objectTypeSlot span

/-- A fresh definition, still without a value. -/
def define (id : String) (span : Span) : Stmt :=
  .definition (.ofLiteral (.str id)) { objectTypeSlot with constraint := some .object } span

/-- The stretch of source that the statement was read from. -/
def span : Stmt → Span
  | block b => b.span
  | expression _ span | declaration _ _ span | definition _ _ span => span

/-- The kind of the statement. -/
def kindName : Stmt → String
  | block _ => "CodeBlock"
  | expression _ _ => "ExpressionStmt"
  | declaration _ _ _ => "VariableDeclaration"
  | definition _ _ _ => "VariableDefinition"

/-- The slot of the value that a definition gives to its variable. -/
def valueSlot? : Stmt → Option Slot
  | definition _ type _ => type.constraint
  | _ => none

/-- The name of the variable that the statement declares. -/
def variableName? : Stmt → Option String
  | declaration id _ _ | definition id _ _ => some id.text
  | _ => none

/-- The declared type, if the statement declares a variable and its type slot holds a
type. -/
def declaredType? : Stmt → Option Ty
  | declaration _ type _ | definition _ type _ => type.expr?.bind Expr.asType?
  | _ => none

/-- The fields of a statement. -/
def fields : Stmt → Fields
  | block _ => []
  | expression value _ => [("value", .slot value)]
  | declaration id type _ => [("id", .slot id), ("type", .slot type)]
  | definition id type _ =>
    ("id", .slot id) :: ("type", .slot type) ::
      match type.constraint with
      | some value => [("value", .slot value)]
      | none => []

/-- The field of the given name. -/
def field? (s : Stmt) (name : String) : Option Field := Fields.get? s.fields name

/-- Writes a field back under its name. -/
def setField (s : Stmt) (name : String) (f : Field) : Stmt :=
  match s, name, f with
  | expression _ span, "value", .slot x => expression x span
  | declaration _ type span, "id", .slot x => declaration x type span
  | declaration id _ span, "type", .slot x => declaration id x span
  | definition _ type span, "id", .slot x => definition x type span
  | definition id _ span, "type", .slot x => definition id x span
  | definition id type span, "value", .slot x =>
    definition id { type with constraint := some x } span
  | s, _, _ => s

/-- Places an expression in the named field. -/
def addToField (s : Stmt) (name : String) (e : Expr) : Edited Stmt Unit :=
  match s.field? name with
  | none => (.error (.detached (.unknownField s.kindName name)), s)
  | some f =>
    let (outcome, f) := f.add e
    (outcome, s.setField name f)

/-- Puts another type into a type slot. The old type is taken out first. Answers what the
constrained slot had to give up. -/
def retype (slot : Slot) (t : Ty) (span : Span) : Edited Slot (Option Expr) :=
  slot.remove.2.place (.type t span)

/-- Replaces the declared type of a variable statement. A definition answers its value if
that no longer fits. -/
def setType? (s : Stmt) (t : Ty) (span : Span) : Option (Edited Stmt (Option Expr)) :=
  match s with
  | declaration id slot here =>
    let (outcome, slot) := retype slot t span
    some (outcome.map fun _ => none, declaration id slot here)
  | definition id slot here =>
    let (outcome, slot) := retype slot t span
    some (outcome, definition id slot here)
  | _ => none

/-- Gives a definition its value. -/
def setValue? (s : Stmt) (value : Expr) : Option (Edited Stmt Unit) :=
  match s with
  | definition id type span =>
    match type.constraint with
    | none => some (.error (.detached (.unknownField s.kindName "value")), s)
    | some slot =>
      let (outcome, slot) := slot.add value
      some (outcome, definition id { type with constraint := some slot } span)
  | _ => none

end Stmt
end SlotTree

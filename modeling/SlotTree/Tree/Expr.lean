import SlotTree.Literal
import SlotTree.Location

/-!
# Expressions and their slots

Every child position of a node is a *slot*.  A slot has a type, and it holds nothing, a
raw literal value, or an expression.  A slot may own a second slot, which it
constrains: whenever a type lands in the owner, the owned slot takes that type.  The
value of a variable definition is such an owned slot, and the owner is the slot of the
declared type.

Expressions, slots and rest fields are defined together.  An expression is one of a
closed list of node kinds, and each kind has its slots as named parts, so that a node
without its slots cannot be written down.  Two kinds take call arguments: `call`, which
calls whatever stands in its `func` slot, and `print`, the one builtin with parameters
of its own.  Both carry a `Binder`, the record of how far their arguments have been
bound.

Nothing here checks that what a slot holds fits its type: slots are edited through the
operations of `SlotTree.Tree.Slot`, and that these keep the tree well typed is a fact to
be proved about them, not a part of the data.
-/

namespace SlotTree

/-- What a slot holds. -/
inductive Content (α : Type) where
  | empty
  | literal (value : Literal)
  | expr (occupant : α)
  deriving Repr

/-- The kinds of literal nodes. -/
inductive LiteralKind where
  | bool
  | none
  | int
  | float
  | str
  deriving DecidableEq, Repr, Inhabited

/-- How far the arguments of a callable have been bound. -/
structure Binder where
  /-- The parameter that the next positional argument goes to; absent once a keyword
  argument has been seen. -/
  next : Option Nat := some 0
  /-- Whether an argument has been offered, or the callable was marked as called. -/
  invoked : Bool := false
  deriving DecidableEq, Repr, Inhabited

mutual

/-- An expression. -/
inductive Expr where
  /-- A literal. -/
  | literal (kind : LiteralKind) (value : Slot) (span : Span)
  /-- The value of a variable. -/
  | load (id : Slot) (span : Span)
  /-- A `name=value` argument that a callable collects. -/
  | keyword (arg value : Slot) (span : Span)
  /-- A type used as a value. -/
  | type (type : Ty) (span : Span)
  /-- A call of whatever `func` holds. -/
  | call (func : Slot) (args keywords : Variadic) (binder : Binder) (span : Span)
  /-- The builtin `print`, called or not. -/
  | print (objects : Variadic) (sep ending file flush : Slot) (binder : Binder) (span : Span)

/-- A typed child position. -/
structure Slot where
  type : Ty
  content : Content Expr
  /-- The slot that takes its type from the type held here. -/
  constraint : Option Slot

/-- A field of any number of slots of one item type. -/
structure Variadic where
  itemType : Ty
  slots : List Slot

end

/-! ## Literal nodes -/

namespace LiteralKind

/-- The name of the node. -/
def nodeName : LiteralKind → String
  | bool => "BoolLiteral"
  | none => "NoneLiteral"
  | int => "IntLiteral"
  | float => "FloatLiteral"
  | str => "StrLiteral"

/-- The class of the values that the node evaluates to. -/
def valueClass : LiteralKind → Class
  | bool => .literalBool
  | none => .literalNone
  | int => .literalInt
  | float => .literalFloat
  | str => .literalStr

end LiteralKind

/-- The kind of node that a value is written as. -/
def Literal.kind : Literal → LiteralKind
  | .bool _ => .bool
  | .none => .none
  | .int _ => .int
  | .float _ => .float
  | .str _ => .str

/-- A literal node evaluates to the class of its value. -/
theorem Literal.valueClass_kind (v : Literal) : v.kind.valueClass = v.slotClass := by
  cases v <;> rfl

/-! ## Slots -/

namespace Slot

/-- An empty slot of a type. -/
def ofType (t : Ty) : Slot := ⟨t, .empty, none⟩

/-- A slot for objects of any kind, still empty. -/
def object : Slot := ofType (.plain .object)

/-- A literal slot, typed after the value that it starts with. -/
def ofLiteral (v : Literal) : Slot := ⟨.plain v.slotClass, .literal v, none⟩

/-- The expression in the slot. -/
def expr? (s : Slot) : Option Expr :=
  match s.content with
  | .expr e => some e
  | _ => none

/-- The raw value in the slot. -/
def literal? (s : Slot) : Option Literal :=
  match s.content with
  | .literal v => some v
  | _ => none

/-- Whether the slot holds anything. -/
def isOccupied (s : Slot) : Bool :=
  match s.content with
  | .empty => false
  | _ => true

/-- Whether the type of the slot is a literal class. -/
def isLiteralSlot (s : Slot) : Bool := s.type.head.isLiteral

/-! What a slot holds is read as a value of one kind.  A slot that was edited to hold
something of another kind reads as the value of that kind that is false, zero or empty. -/

/-- The truth value that a slot holds. -/
def truth (s : Slot) : Bool :=
  match s.literal? with
  | some (.bool value) => value
  | _ => false

/-- The whole number that a slot holds. -/
def whole (s : Slot) : Int64 :=
  match s.literal? with
  | some (.int value) => value
  | _ => 0

/-- The floating-point number that a slot holds. -/
def floating (s : Slot) : Binary64 :=
  match s.literal? with
  | some (.float value) => value
  | _ => ⟨0⟩

/-- The text that a slot for a name or text holds. -/
def text (s : Slot) : String :=
  match s.literal? with
  | some (.str value) => value
  | _ => ""

@[simp] theorem expr?_ofType (t : Ty) : (ofType t).expr? = none := rfl

@[simp] theorem literal?_ofLiteral (v : Literal) : (ofLiteral v).literal? = some v := rfl

@[simp] theorem text_ofLiteral_str (value : String) :
    (ofLiteral (.str value)).text = value := rfl

end Slot

/-! ## Rest fields -/

namespace Variadic

/-- A rest field without slots. -/
def ofType (t : Ty) : Variadic := ⟨t, []⟩

/-- The expressions in the slots, in order. -/
def exprs (v : Variadic) : List Expr := v.slots.filterMap Slot.expr?

end Variadic

/-! ## Expressions -/

namespace Expr

/-- The literal node of a value. -/
def ofLiteral (v : Literal) (span : Span) : Expr := .literal v.kind (.ofLiteral v) span

/-- The node that reads a variable. -/
def ofName (id : String) (span : Span) : Expr := .load (.ofLiteral (.str id)) span

/-- A call without a callee and without arguments. -/
def emptyCall (span : Span) : Expr :=
  .call .object (.ofType (.plain .object)) (.ofType (.plain .keyword)) {} span

/-- The builtin `print` without arguments. -/
def emptyPrint (span : Span) : Expr :=
  .print (.ofType (.plain .object)) (.ofType (.plain .str)) (.ofType (.plain .str))
    .object (.ofType (.plain .bool)) {} span

/-- The stretch of source that the expression was read from. -/
def span : Expr → Span
  | literal _ _ span | load _ span | keyword _ _ span | type _ span
  | call _ _ _ _ span | print _ _ _ _ _ _ span => span

/-- The type of `print` as a value: any number of objects, four keywords that may all be
left out, and no result. -/
def printType : Ty :=
  .callable
    [.plain .variadicArg,
      .keywordOnly "sep" true (.plain .str),
      .keywordOnly "end" true (.plain .str),
      .keywordOnly "file" true (.plain .object),
      .keywordOnly "flush" true (.plain .bool)]
    (.plain .noneType) true

/-- The type of the value that the expression evaluates to. Every type is an instance of
`type`; what a variable or a call evaluates to is not known. -/
def valueType : Expr → Ty
  | literal kind _ _ => .plain kind.valueClass
  | load _ _ => .plain .object
  | keyword _ _ _ => .plain .keyword
  | type _ _ => .plain .type
  | call _ _ _ _ _ => .plain .object
  | print _ _ _ _ _ _ _ => printType

/-- The kind of the node. -/
def kindName : Expr → String
  | literal kind _ _ => kind.nodeName
  | load _ _ => "VariableLoader"
  | keyword _ _ _ => "Keyword"
  | type _ _ => "Type"
  | call _ _ _ _ _ => "Call"
  | print _ _ _ _ _ _ _ => "Builtin"

/-- The name of the node in diagnostics: that of the type or builtin itself where the
node stands for one. -/
def nodeName : Expr → String
  | type t _ => t.name
  | print _ _ _ _ _ _ _ => "print"
  | e => e.kindName

/-- The type that a type expression stands for. -/
def asType? : Expr → Option Ty
  | type t _ => some t
  | _ => none

/-- The name of the builtin that the expression is. -/
def builtinName? : Expr → Option String
  | print _ _ _ _ _ _ _ => some "print"
  | _ => none

@[simp] theorem valueType_ofLiteral (v : Literal) (span : Span) :
    (ofLiteral v span).valueType = .plain v.slotClass := by
  simp [ofLiteral, valueType, Literal.valueClass_kind]

@[simp] theorem asType?_type (t : Ty) (span : Span) : (type t span).asType? = some t := rfl

end Expr
end SlotTree

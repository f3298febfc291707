import SlotTree.Source.Layout
import SlotTree.Source.Quote
import SlotTree.Tree.Callable
import SlotTree.Tree.Node

/-!
# The tree as source text

Every node has one source form, and a node that lacks a part it needs has none.  A slot
that must hold an expression is one whose emptiness is a fault: the value of an
expression statement, the types and values of variable statements, the value of a keyword
and the callee of a call.  Slots of arguments are different.  An empty one, or one that
holds a raw value, is passed over.

Where several parts are at fault the order of the checks decides which fault is
reported.  A call asks for its callee first, then renders its arguments and only then
the callee; a definition asks for its type and its value before it renders either.

A callable that was not invoked is rendered as a mention: `print` without parentheses,
unless something has been put into its slots by hand.
-/

namespace SlotTree

/-- The fault of a node that has no source form. -/
def noSourceForm (node : String) (span : Span) : Fault := ⟨.noSourceForm node, span.start⟩

/-- The fault of a slot that must hold an expression. -/
def emptySlot (node field : String) (span : Span) : Fault := ⟨.emptySlot node field, span.start⟩

namespace Source

/-- A floating-point number, if it can be written. -/
def float? (x : Binary64) : Option String :=
  if x.isFinite then some (String.ofList (FloatStyle.source.write x)) else none

/-- The value of a literal node of the given kind. -/
def literal (kind : LiteralKind) (value : Slot) (span : Span) : Except Fault String :=
  match kind with
  | .bool => .ok (if value.truth then "True" else "False")
  | .none => .ok "None"
  | .int => .ok (toString value.whole.toInt)
  | .float =>
    match float? value.floating with
    | some text => .ok text
    | none => .error (noSourceForm kind.nodeName span)
  | .str => .ok (quote value.text)

/-- A type in an annotation. -/
def typeText (t : Ty) (span : Span) : Except Fault String :=
  match t.written? with
  | some text => .ok text
  | none => .error (noSourceForm t.name span)

/-- Texts with a comma between them. -/
def commaSeparated (texts : List String) : String := ", ".intercalate texts

/-- A rendered part under its keyword, if it is there. -/
def keywordPart (keyword : String) : Option String → List String
  | some text => [keyword ++ "=" ++ text]
  | none => []

end Source

mutual

/-- The source form of an expression. -/
def Expr.render : Expr → Except Fault String
  | .literal kind value span => Source.literal kind value span
  | .load id _ => .ok id.text
  | .keyword arg value span =>
    match value.render? with
    | none => .error (emptySlot "Keyword" "value" span)
    | some (.error fault) => .error fault
    | some (.ok text) => .ok (arg.text ++ "=" ++ text)
  | .type t span => Source.typeText t span
  | .call func ⟨_, args⟩ ⟨_, keywords⟩ _ span =>
    match func.render? with
    | none => .error (emptySlot "Call" "func" span)
    | some callee => do
      let args ← renderSlots args
      let keywords ← renderSlots keywords
      let callee ← callee
      .ok (callee ++ "(" ++ Source.commaSeparated (args ++ keywords) ++ ")")
  | .print ⟨itemType, objects⟩ sep ending file flush binder _ =>
    if !binder.invoked && !Expr.hasArguments ⟨itemType, objects⟩ [sep, ending, file, flush] then
      .ok "print"
    else do
      let objects ← renderSlots objects
      let sep ← sep.renderPart
      let ending ← ending.renderPart
      let file ← file.renderPart
      let flush ← flush.renderPart
      .ok ("print(" ++ Source.commaSeparated
        (objects ++ Source.keywordPart "sep" sep ++ Source.keywordPart "end" ending ++
          Source.keywordPart "file" file ++ Source.keywordPart "flush" flush) ++ ")")

/-- The source form of the expression in a slot, if it holds one. -/
def Slot.render? : Slot → Option (Except Fault String)
  | ⟨_, .expr e, _⟩ => some e.render
  | _ => none

/-- The source form of what may be absent from a slot. -/
def Slot.renderPart : Slot → Except Fault (Option String)
  | ⟨_, .expr e, _⟩ => e.render.map some
  | _ => .ok none

/-- The source forms of the expressions in slots of arguments. -/
def renderSlots : List Slot → Except Fault (List String)
  | [] => .ok []
  | ⟨_, .expr e, _⟩ :: ss => do
    let text ← e.render
    let texts ← renderSlots ss
    .ok (text :: texts)
  | _ :: ss => renderSlots ss

end

namespace Source

/-- Four blanks per level. -/
def margin (level : Nat) : String := String.ofList (List.replicate (4 * level) ' ')

/-- The expression that a field must hold. -/
def required (held : Option Expr) (node field : String) (span : Span) : Except Fault Expr :=
  match held with
  | some e => .ok e
  | none => .error (emptySlot node field span)

end Source

mutual

/-- The source form of a statement, so many levels from the left. The statements of a
block stand on lines of their own. -/
def Stmt.render (level : Nat) : Stmt → Except Fault String
  | .block ⟨body, _⟩ => do
    let texts ← renderStmts level body
    .ok ("\n".intercalate texts)
  | .expression value span => do
    let value ← Source.required value.expr? "ExpressionStmt" "value" span
    let text ← value.render
    .ok (Source.margin level ++ text)
  | .declaration id type span => do
    let type ← Source.required type.expr? "VariableDeclaration" "type" span
    let text ← type.render
    .ok (Source.margin level ++ id.text ++ ": " ++ text)
  | .definition id type span => do
    let declared ← Source.required type.expr? "VariableDefinition" "type" span
    let value ←
      Source.required (type.constraint.bind Slot.expr?) "VariableDefinition" "value" span
    let declared ← declared.render
    let value ← value.render
    .ok (Source.margin level ++ id.text ++ ": " ++ declared ++ " = " ++ value)

/-- The source forms of statements. -/
def renderStmts (level : Nat) : List Stmt → Except Fault (List String)
  | [] => .ok []
  | s :: ss => do
    let text ← s.render level
    let texts ← renderStmts level ss
    .ok (text :: texts)

end

/-- The source form of a node. With `layout`, it is brought into canonical layout. -/
def Node.render (n : Node) (level : Nat) (layout : Bool) : Except Fault String := do
  let text ←
    match n with
    | .stmt s => s.render level
    | .expr e => e.render
  .ok (if layout then Source.format text else text)

/-- The source form of a block. -/
def Block.render (b : Block) (level : Nat) (layout : Bool) : Except Fault String :=
  Node.render (.stmt (.block b)) level layout

end SlotTree

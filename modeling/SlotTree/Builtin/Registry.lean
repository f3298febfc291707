import SlotTree.Builtin.Names
import SlotTree.Json
import SlotTree.Tree.Callable

/-!
# The registry of builtin expressions

A script may mention names that stand for expressions of their own instead of
variables: the types, `None` and `print`.  The registry maps such a name to the
expression that a mention of it becomes, given the span of the mention.  More names of
Python's `builtins` module can be registered; a name is registered once and for all, and
the names that the tree covers by its own nodes cannot be taken over.

The registry is a list of entries, latest first, without two entries of one name; the
order shows nowhere, because names are listed in increasing order.
-/

namespace SlotTree

/-- What a mention of a builtin name becomes. -/
abbrev Constructor : Type := Span → Expr

/-- The builtin names with their constructors. -/
structure Registry where
  entries : List (String × Constructor)

namespace Registry

/-- The constructor of a type name. -/
def typeConstructor (c : Class) : Constructor := fun span => .type (.wrap c) span

/-- The builtins that every script knows. -/
def default : Registry :=
  ⟨[("object", typeConstructor .object),
    ("bool", typeConstructor .bool),
    ("int", typeConstructor .int),
    ("float", typeConstructor .float),
    ("str", typeConstructor .str),
    ("list", typeConstructor .list),
    ("None", Expr.ofLiteral .none),
    ("print", Expr.emptyPrint)]⟩

/-- The constructor of a name. -/
def find? (r : Registry) (name : String) : Option Constructor :=
  (r.entries.find? fun entry => entry.1 == name).map fun entry => entry.2

/-- Whether a name stands for a builtin expression. -/
def contains (r : Registry) (name : String) : Bool := (r.find? name).isSome

/-- The expression that a mention of a name becomes. -/
def create (r : Registry) (name : String) (span : Span) : Except Fault Expr :=
  match r.find? name with
  | some constructor => .ok (constructor span)
  | none => .error ⟨.invalidBuiltinName name, span.start⟩

/-- Registers another name. -/
def register (r : Registry) (name : String) (constructor : Constructor) :
    Edited Registry Unit :=
  if !Builtin.isRegistrable name then (.error (.detached (.invalidBuiltinName name)), r)
  else if r.contains name then (.error (.detached (.builtinAlreadyRegistered name)), r)
  else (.ok (), ⟨(name, constructor) :: r.entries⟩)

/-- The registered names in increasing order. -/
def names (r : Registry) : List String :=
  (Json.sortEntries r.entries).map fun entry => entry.1

/-- The registry as a diagnostic shows it. -/
def shown (r : Registry) : String :=
  "BuiltinRegistry \x7b names: [" ++ ", ".intercalate (r.names.map Text.quoted) ++ "] \x7d"

end Registry
end SlotTree

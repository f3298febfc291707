/-!
# Classes of types

Every type of a script has a class at its head, and the classes form a tree: each has
one base, except `type`, which stands above everything.  Below `object` are the
ordinary values.  Beside it, directly below `type`, are the markers that stand in a
signature but are no types of values, and the class of keyword arguments.

Each class of plain values has a *literal* counterpart below it.  A slot of a literal
class holds a raw value instead of an expression, and a literal in a script has the
literal class as its type, so that `1` fits where `int` is wanted while no other `int`
fits where the literal itself is.

The tree is four classes deep, which `ancestors` uses to walk up without search;
`ancestors_eq` says that it walks up to the end.
-/

namespace SlotTree

/-- The classes of types. -/
inductive Class where
  | type
  | object
  | bool
  | literalBool
  | noneType
  | literalNone
  | int
  | literalInt
  | float
  | literalFloat
  | str
  | literalStr
  | list
  | callable
  | function
  | variadicArg
  | variadicKeywordArg
  | keywordOnlyArg
  | keyword
  deriving DecidableEq, Repr, Inhabited

namespace Class

/-- All classes. -/
def all : List Class :=
  [type, object, bool, literalBool, noneType, literalNone, int, literalInt, float,
    literalFloat, str, literalStr, list, callable, function, variadicArg,
    variadicKeywordArg, keywordOnlyArg, keyword]

/-- The name of the class itself, as opposed to that of a type with this class. -/
def label : Class → String
  | type => "Type"
  | object => "Object"
  | bool => "Bool"
  | literalBool => "LiteralBool"
  | noneType => "NoneType"
  | literalNone => "LiteralNoneType"
  | int => "Int"
  | literalInt => "LiteralInt"
  | float => "Float"
  | literalFloat => "LiteralFloat"
  | str => "Str"
  | literalStr => "LiteralStr"
  | list => "List"
  | callable => "Callable"
  | function => "Function"
  | variadicArg => "VariadicArg"
  | variadicKeywordArg => "VariadicKeywordArg"
  | keywordOnlyArg => "KeywordOnlyArg"
  | keyword => "Keyword"

/-- The class with the given label. -/
def ofLabel? (text : String) : Option Class := all.find? fun c => c.label == text

/-- The class directly above. -/
def base : Class → Option Class
  | type => none
  | object | variadicArg | variadicKeywordArg | keywordOnlyArg | keyword => some type
  | bool | noneType | int | float | str | list | callable => some object
  | literalBool => some bool
  | literalNone => some noneType
  | literalInt => some int
  | literalFloat => some float
  | literalStr => some str
  | function => some callable

/-- The first `n` classes on the way up, the class itself first. -/
def lineage : (n : Nat) → Class → List Class
  | 0, _ => []
  | n + 1, c =>
    match c.base with
    | none => [c]
    | some b => c :: lineage n b

/-- The class and all classes above it. -/
def ancestors (c : Class) : List Class := lineage 4 c

/-- **The ancestors of a class are the class and the ancestors of its base.** -/
theorem ancestors_eq (c : Class) :
    c.ancestors = c :: (match c.base with | none => [] | some b => b.ancestors) := by
  cases c <;> rfl

/-- Whether the class is the other one or lies below it. -/
def isSubclassOf (c other : Class) : Bool := c.ancestors.contains other

/-- Whether slots of this class hold raw values instead of expressions. -/
def isLiteral : Class → Bool
  | literalBool | literalNone | literalInt | literalFloat | literalStr => true
  | _ => false

end Class
end SlotTree

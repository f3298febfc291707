import SlotTree.Ty.Class

/-!
# Types

A type is a plain class, a list of something, a callable with a signature, or the
marker of a keyword-only parameter.  The markers of signatures are types too, because
a signature is a list of types: a plain type stands for a positional parameter, the
class `variadicArg` for `*args`, `variadicKeywordArg` for `**kwargs`.

Lists, callables and keyword-only parameters also exist *as plain classes*, without
what they carry.  `Ty.wrap` never builds these, but an editor may name them, and they
behave differently: a plain `callable` has no signature to be compatible with.
-/

namespace SlotTree

/-- The types. -/
inductive Ty where
  /-- A class without parameters. -/
  | plain (head : Class)
  /-- A list with items of the given type. -/
  | list (item : Ty)
  /-- A parameter that can only be passed by keyword. -/
  | keywordOnly (keyword : String) (optional : Bool) (arg : Ty)
  /-- A callable with its parameters and the type it returns. -/
  | callable (params : List Ty) (result : Ty) (isFunction : Bool)
  deriving Repr, Inhabited

namespace Ty

/-- The class at the head of a type. -/
def head : Ty → Class
  | plain c => c
  | list _ => .list
  | keywordOnly _ _ _ => .keywordOnlyArg
  | callable _ _ true => .function
  | callable _ _ false => .callable

@[simp] theorem head_plain (c : Class) : (plain c).head = c := rfl

@[simp] theorem head_list (t : Ty) : (list t).head = .list := rfl

/-- The type that a bare class name stands for: a list of objects, a callable without
parameters that returns an object, and otherwise the plain class. -/
def wrap : Class → Ty
  | .list => list (plain .object)
  | .callable => callable [] (plain .object) false
  | .function => callable [] (plain .object) true
  | c => plain c

/-- The name of a plain class in diagnostics. -/
def plainName : Class → String
  | .type => "type"
  | .object => "object"
  | .bool => "bool"
  | .noneType => "None"
  | .int => "int"
  | .float => "float"
  | .str => "str"
  | .literalBool => "Literal[bool]"
  | .literalNone => "Literal[None]"
  | .literalInt => "Literal[int]"
  | .literalFloat => "Literal[float]"
  | .literalStr => "Literal[str]"
  | .variadicArg => "*args"
  | .variadicKeywordArg => "**kwargs"
  | .keyword => "keyword"
  | c => c.label

mutual

/-- The name of a type in diagnostics. -/
def name : Ty → String
  | plain c => plainName c
  | list item => "list[" ++ name item ++ "]"
  | keywordOnly keyword optional arg =>
    keyword ++ ": " ++ name arg ++ (if optional then " = ..." else "")
  | callable params result isFunction =>
    (if isFunction then "Function" else "Callable") ++ "[[" ++
      ", ".intercalate (names params) ++ "], " ++ name result ++ "]"

/-- The names of the types of a signature. -/
def names : List Ty → List String
  | [] => []
  | t :: ts => name t :: names ts

end

/-- The way of writing a type in an annotation. Literal types read as the class they
belong to; callables, markers and keywords cannot be written. -/
def written? : Ty → Option String
  | list item => (written? item).map fun text => "list[" ++ text ++ "]"
  | plain .type => some "type"
  | plain .object => some "object"
  | plain .bool | plain .literalBool => some "bool"
  | plain .noneType | plain .literalNone => some "None"
  | plain .int | plain .literalInt => some "int"
  | plain .float | plain .literalFloat => some "float"
  | plain .str | plain .literalStr => some "str"
  | plain .list => some "list"
  | _ => none

end Ty
end SlotTree

import SlotTree.Reading.Cursor
import SlotTree.Reading.Grammar

/-!
# Reading annotations

An annotation is a builtin name that stands for a type, `None`, or `list` with the type
of its items in brackets.  It is read by the same precedence method as expressions, with
tables of its own: a bracket or a `|` after a type belongs to it, and only a list type
can have a bracket.

Reading nests where brackets do.  `typeUpTo` is given the number of levels that it may
go down, and the loop over what follows a type is given the number of rounds; both are
taken from the tokens that are left, and since each level and each round takes a token
neither can run out.
-/

namespace SlotTree
namespace Reading

open Parse

/-- The fault of a node that the tree does not have. -/
def notSupported (node : String) (position : Position) : Fault :=
  ⟨.nodeNotSupported node, position⟩

/-- A builtin name used as a type. -/
def symbolType (lang : Language) : Parse Ty := do
  let token ← expect .identifier
  match lang.builtins.find? token.text with
  | none => fail ⟨.unknownType token.text, token.span.start⟩
  | some constructor =>
    let e := constructor token.span
    match e.asType? with
    | some t => pure t
    | none => fail ⟨.typeMismatch (Ty.plain .type).name e.valueType.name, token.span.start⟩

/-- The type of `None`. -/
def noneType : Parse Ty := do
  let _ ← expect (.reserved .none_)
  pure (.plain .noneType)

/-- The items of a list type, in brackets. -/
def subscriptType (item : Parse Ty) (left : Ty) : Parse Ty := do
  let bracket ← expect .openBracket
  if left.head != .list then
    fail ⟨.featureNotSupported ("subscripting type `" ++ left.name ++ "`"), bracket.span.start⟩
  else
    let t ← item
    let _ ← expect .closeBracket
    pure (.list t)

/-- An alternative between types, for which there is no type. -/
def unionType : Parse Ty := do
  let operator ← expect .pipe
  fail ⟨.featureNotSupported "union types", operator.span.start⟩

/-- What opens an annotation. -/
def openType (lang : Language) : Parse Ty := do
  match lang.grammar.typeOpening? (← look Cursor.kind) with
  | none => unexpected
  | some .symbol => symbolType lang
  | some .none => noneType

/-- What follows an annotation, as long as it binds more strongly than the given power. -/
def followType (lang : Language) (item : Parse Ty) (power : Power) :
    (rounds : Nat) → Ty → Parse Ty
  | 0, _ => unexpected
  | rounds + 1, left => do
    let kind ← look Cursor.kind
    match lang.grammar.typePower? kind with
    | none => pure left
    | some next =>
      if next.rank ≤ power.rank then pure left
      else
        match lang.grammar.typeFollowing? kind with
        | none => unexpected
        | some (_, .subscript) => do
          let left ← subscriptType item left
          followType lang item power rounds left
        | some (_, .union) => unionType

/-- Reads an annotation that goes down at most so many levels. -/
def typeUpTo (lang : Language) : (levels : Nat) → Power → Parse Ty
  | 0, _ => unexpected
  | levels + 1, power => do
    let left ← openType lang
    followType lang (typeUpTo lang levels .lowest) power (← look Cursor.remaining) left

/-- Reads an annotation. -/
def type (lang : Language) (power : Power) : Parse Ty := fun c =>
  typeUpTo lang c.remaining power c

/-- Reads an annotation, with the stretch of source that it stands on. -/
def typeExpr (lang : Language) : Parse (Ty × Span) := do
  let start ← look Cursor.position
  let t ← type lang .lowest
  let stop ← look Cursor.previousEnd
  pure (t, ⟨start, stop⟩)

end Reading
end SlotTree

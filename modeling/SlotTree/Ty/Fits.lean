import SlotTree.Ty.Basic

/-!
# When a value of one type may stand where another is required

`Ty.fits provided required` is the rule by which slots accept and reject expressions.
For plain classes and lists it is the class tree: a class fits where one of its
ancestors is required.  Nothing but a type fits where `type` is required, although
`type` is above every class, and list items are not compared.

For callables the rule compares signatures.  The parameters of the provided callable
are walked from the left against those of the required one.  A parameter plays one of
three roles (`Role`): positional, `*args`, or a keyword marker, that is a keyword-only
parameter or `**kwargs`.

* `*args` of the provided callable takes every positional parameter that the required
  one still has.
* `*args` of the required callable takes every positional parameter that the provided
  one still has; in front of a keyword marker it is passed over.
* Two positional parameters are compared with each other.
* As soon as both sides have come to their keyword markers, the rest is compared by
  name (`keywordsFit`), and the order of keywords no longer matters.

The walk itself knows nothing of `fits`: every provided parameter comes with a test for
the type of an argument (`Own`), so the walk is recursion on a list and `fits` is
recursion on the provided type, both structural.  `owns_eq_map` says which test a
parameter comes with.
-/

namespace SlotTree
namespace Ty

/-- The role of a parameter in a signature. -/
inductive Role where
  | positional
  | variadic
  | keyword
  deriving DecidableEq, Repr

/-- The role that a class gives to a parameter. -/
def roleOf : Class → Role
  | .variadicArg => .variadic
  | .keywordOnlyArg | .variadicKeywordArg => .keyword
  | _ => .positional

/-- The role of a type in a signature. -/
def role (t : Ty) : Role := roleOf t.head

/-- Whether a parameter is a keyword-only one that may be left out. -/
def isOptionalKeyword : Ty → Bool
  | keywordOnly _ optional _ => optional
  | _ => false

/-- The type of the argument that a parameter takes. -/
def argType : Ty → Ty
  | keywordOnly _ _ arg => arg
  | t => t

/-- A parameter of the provided callable with the test whether it takes an argument of
a type. -/
structure Own where
  param : Ty
  takes : Ty → Bool

/-- The test that comes with the first keyword-only parameter of the given name. -/
def ownKeyword? (keyword : String) : List Own → Option (Ty → Bool)
  | [] => none
  | ⟨.keywordOnly name _ _, takes⟩ :: rest =>
    if name == keyword then some takes else ownKeyword? keyword rest
  | _ :: rest => ownKeyword? keyword rest

/-- Whether a parameter may stand among the keywords of a signature. -/
def isKeywordParam : Ty → Bool
  | keywordOnly _ _ _ => true
  | t => t.head == .variadicKeywordArg

/-- Whether keywords are taken as they are required: only keyword parameters are left
on either side, `**kwargs` is met by `**kwargs`, and every keyword that the required
signature insists on is taken by its namesake or else by `**kwargs`. -/
def keywordsFit (own : List Own) (required : List Ty) : Bool :=
  let ownRest := own.any fun o => o.param.head == .variadicKeywordArg
  let requiredRest := required.any fun q => q.head == .variadicKeywordArg
  own.all (fun o => isKeywordParam o.param) &&
  required.all isKeywordParam &&
  (!requiredRest || ownRest) &&
  required.all fun q =>
    match q with
    | keywordOnly keyword false arg =>
      match ownKeyword? keyword own with
      | some takes => takes arg
      | none => ownRest
    | _ => true

/-- Walks the provided parameters against the required ones. -/
def paramsFit : (own : List Own) → (required : List Ty) → Bool
  | [], required => required.all isOptionalKeyword
  | o :: own, required =>
    match o.param.role with
    | .variadic =>
      match required.dropWhile fun q => q.role == .positional with
      | [] => paramsFit own []
      | q :: rest => if q.role == .variadic then paramsFit own rest else paramsFit own (q :: rest)
    | .keyword =>
      match required.dropWhile fun q => q.role == .variadic with
      | [] =>
        (o.param.head == .variadicKeywordArg || isOptionalKeyword o.param) && paramsFit own []
      | q :: rest => q.role == .keyword && keywordsFit (o :: own) (q :: rest)
    | .positional =>
      match required with
      | [] => false
      | q :: rest =>
        match q.role with
        | .variadic => paramsFit own (q :: rest)
        | .keyword => false
        | .positional => o.takes q && paramsFit own rest

/-- Whether a class below `object` may stand where a type is required. -/
def classFits (c : Class) (required : Ty) : Bool :=
  required.head != .type && c.isSubclassOf required.head

mutual

/-- Whether a value of the first type may stand where the second is required. -/
def fits : (provided : Ty) → (required : Ty) → Bool
  | plain c, required =>
    match c with
    | .type | .keyword => required.head == c
    -- markers are no types of values
    | .variadicArg | .variadicKeywordArg | .keywordOnlyArg => false
    | c => classFits c required
  | list _, required => classFits .list required
  | keywordOnly _ _ _, _ => false
  | callable params result _, required =>
    match required.head with
    | .type => false
    | .object => true
    | _ =>
      match required with
      | callable requiredParams requiredResult _ =>
        paramsFit (owns params) requiredParams &&
          -- whoever expects nothing back ignores what is returned
          (requiredResult.head.isSubclassOf .noneType || fits result requiredResult)
      | _ => false

/-- The parameters of a signature, each with the test for its argument. -/
def owns : List Ty → List Own
  | [] => []
  | keywordOnly keyword optional arg :: ts =>
    ⟨keywordOnly keyword optional arg, fits arg⟩ :: owns ts
  | plain c :: ts => ⟨plain c, fits (plain c)⟩ :: owns ts
  | list item :: ts => ⟨list item, fits (list item)⟩ :: owns ts
  | callable ps r f :: ts => ⟨callable ps r f, fits (callable ps r f)⟩ :: owns ts

end

/-- **A parameter is tested by the rule itself**, applied to the type of its argument. -/
theorem owns_eq_map (ts : List Ty) : owns ts = ts.map fun t => ⟨t, fits t.argType⟩ := by
  induction ts with
  | nil => rfl
  | cons t ts ih => cases t <;> simp [owns, argType, ih]

end Ty
end SlotTree

import SlotTree.Tree.Binder

/-!
# Expressions that take arguments

Two kinds of expressions take call arguments.  A `call` collects any number of
positional and keyword arguments for whatever it calls.  The builtin `print` takes
objects to print and four keyword-only parameters.  `signature?` says which parameters
an expression has and under which fields they are filled; all other expressions have
none.

A callable that has not been invoked yet is only *mentioned*: `print` alone is the
function, `print()` is a call of it.  Binding an argument or `markInvoked` makes the
difference.
-/

namespace SlotTree

/-- What is needed to bind arguments to a callable. -/
structure Signature where
  /-- The name used in diagnostics. -/
  callee : String
  params : List Parameter
  /-- The fields that positional arguments may fill. -/
  positionalFields : List String
  /-- The fields that keyword arguments may fill. -/
  keywordFields : List String
  binder : Binder

namespace Expr

/-- The signature of an expression that takes arguments. -/
def signature? : Expr → Option Signature
  | call _ _ _ binder _ =>
    some ⟨"Call", [.variadic "args", .variadicKeyword "keywords"],
      ["args", "keywords"], ["args", "keywords"], binder⟩
  | print _ _ _ _ _ binder _ =>
    some ⟨"print",
      [.variadic "objects", .keywordOnly "sep", .keywordOnly "end", .keywordOnly "file",
        .keywordOnly "flush"],
      ["objects"], ["sep", "end", "file", "flush"], binder⟩
  | _ => none

/-- Replaces the binder of an expression that takes arguments. -/
def setBinder (binder : Binder) : Expr → Expr
  | call func args keywords _ span => call func args keywords binder span
  | print objects sep ending file flush _ span =>
    print objects sep ending file flush binder span
  | e => e

/-- Whether arguments have already been offered, for an expression that takes some. -/
def isInvoked? (e : Expr) : Option Bool := e.signature?.map fun s => s.binder.invoked

/-- Marks an expression that takes arguments as called. -/
def markInvoked (e : Expr) : Expr :=
  match e.signature? with
  | some s => e.setBinder { s.binder with invoked := true }
  | none => e

/-- The fields with the given names. -/
def fieldsNamed (e : Expr) (names : List String) : Fields :=
  e.fields.filter fun entry => names.contains entry.1

/-- Writes a finished binding back into the expression. -/
def withBinding (e : Expr) (outcome : Edited Binding Unit) : Edited Expr Unit :=
  (outcome.1, (e.setFields outcome.2.fields).setBinder outcome.2.binder)

/-- Binds a positional argument, if the expression takes arguments at all. -/
def addArgument? (e argument : Expr) : Option (Edited Expr Unit) :=
  e.signature?.map fun s =>
    e.withBinding <| Binding.positional s.callee s.params
      ⟨s.binder, e.fieldsNamed s.positionalFields⟩ argument

/-- Binds a keyword argument, if the expression takes arguments at all. -/
def addKeyword? (e : Expr) (keyword : String) (argument : Expr) : Option (Edited Expr Unit) :=
  e.signature?.map fun s =>
    e.withBinding <| Binding.keyword s.callee s.params
      ⟨s.binder, e.fieldsNamed s.keywordFields⟩ keyword argument

/-- A call of an expression, still without arguments. -/
def callOf (func : Expr) (span : Span) : Except Fault Expr :=
  match Slot.object.add func with
  | (.ok _, slot) =>
    .ok (.call slot (.ofType (.plain .object)) (.ofType (.plain .keyword)) {} span)
  | (.error fault, _) => .error fault

/-- Whether `print` holds an argument, however it came there. -/
def hasArguments (objects : Variadic) (keywordSlots : List Slot) : Bool :=
  !objects.slots.isEmpty || keywordSlots.any Slot.isOccupied

end Expr
end SlotTree

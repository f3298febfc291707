import SlotTree.Tree.Field

/-!
# Binding arguments to parameters

A callable takes its arguments one at a time, as a call does.  Positional arguments fill
the positional parameters from the left and then pile up in the `*args` parameter.
Keyword arguments go to the keyword-only parameter of their name, or else are collected,
as keyword nodes, by the `**kwargs` parameter.  Once a keyword argument has been
offered, positional arguments are refused.

The state of the binding is a `Binder`, and parameters refer to the fields of the
callable by name.  Two details of the order of effects are part of the behaviour.
Offering any argument marks the callable as invoked, also when the argument is then
refused; and offering a keyword argument ends the positional ones, also when it is
refused.

A type that does not fit a parameter is reported as a fault of the argument, with the
name of the parameter (`asArgumentFault`).
-/

namespace SlotTree

/-- How a parameter takes its arguments, with the name of its field. -/
inductive Parameter where
  | positional (name : String)
  | variadic (name : String)
  | keywordOnly (name : String)
  | variadicKeyword (name : String)
  deriving DecidableEq, Repr

namespace Parameter

/-- The name of the field that the parameter fills. -/
def name : Parameter → String
  | positional name | variadic name | keywordOnly name | variadicKeyword name => name

/-- Whether the parameter is the keyword-only one of the given name. -/
def takesKeyword (keyword : String) : Parameter → Bool
  | keywordOnly name => name == keyword
  | _ => false

/-- The name of the field that collects keywords, if the parameter does so. -/
def collector? : Parameter → Option String
  | variadicKeyword name => some name
  | _ => none

end Parameter

/-- Turns a type mismatch of a slot into one of the argument. -/
def Fault.asArgumentFault (fault : Fault) (argument : String) : Fault :=
  match fault.cause with
  | .typeMismatch expected received =>
    ⟨.argumentMismatch argument expected received, fault.position⟩
  | _ => fault

/-- The node of a keyword argument, with the span of its value. -/
def Expr.keywordOf (arg : String) (value : Expr) (span : Span) : Except Fault Expr :=
  match Slot.object.add value with
  | (.ok _, slot) => .ok (.keyword (.ofLiteral (.str arg)) slot span)
  | (.error fault, _) => .error fault

/-- The keyword that a keyword node passes. -/
def Expr.keywordName? : Expr → Option String
  | .keyword arg _ _ => some arg.text
  | _ => none

/-- A binder together with the fields that it fills. -/
structure Binding where
  binder : Binder
  fields : Fields

namespace Binding

/-- The state after an argument has been offered: the callable counts as invoked. -/
def offered (b : Binding) : Binding := { b with binder := { b.binder with invoked := true } }

/-- Binds a positional argument. -/
def positional (callee : String) (params : List Parameter) (b : Binding) (argument : Expr) :
    Edited Binding Unit :=
  let b := b.offered
  match b.binder.next with
  | none => (.error (.detached .positionalAfterKeyword), b)
  | some index =>
    let tooMany : Fault := .detached (.tooManyPositional callee)
    match params[index]? with
    | none => (.error tooMany, b)
    | some param =>
      match param, Fields.get? b.fields param.name with
      | .positional name, some (.slot slot) =>
        match slot.add argument with
        | (.ok _, slot) =>
          (.ok (), { binder := { b.binder with next := some (index + 1) },
                     fields := Fields.set b.fields name (.slot slot) })
        | (.error fault, _) => (.error (fault.asArgumentFault name), b)
      -- the rest field keeps the place: it takes every further argument
      | .variadic name, some (.variadic rest) =>
        match rest.push argument with
        | (.ok _, rest) => (.ok (), { b with fields := Fields.set b.fields name (.variadic rest) })
        | (.error fault, _) => (.error (fault.asArgumentFault name), b)
      | _, _ => (.error tooMany, b)

/-- Binds a keyword argument. -/
def keyword (callee : String) (params : List Parameter) (b : Binding) (keyword : String)
    (argument : Expr) : Edited Binding Unit :=
  let b : Binding := { b.offered with binder := { b.offered.binder with next := none } }
  let unexpected : Fault := .detached (.unexpectedKeyword callee keyword)
  let repeated : Fault := .detached (.repeatedKeyword keyword)
  if params.any (Parameter.takesKeyword keyword) then
    match Fields.get? b.fields keyword with
    | some (.slot slot) =>
      if slot.isOccupied then (.error repeated, b)
      else
        match slot.add argument with
        | (.ok _, slot) => (.ok (), { b with fields := Fields.set b.fields keyword (.slot slot) })
        | (.error fault, _) => (.error (fault.asArgumentFault keyword), b)
    | _ => (.error unexpected, b)
  else
    match params.findSome? Parameter.collector? with
    | none => (.error unexpected, b)
    | some name =>
      match Fields.get? b.fields name with
      | some (.variadic rest) =>
        if rest.exprs.any fun e => e.keywordName? == some keyword then (.error repeated, b)
        else
          match Expr.keywordOf keyword argument argument.span with
          | .error fault => (.error fault, b)
          | .ok node =>
            match rest.push node with
            | (.ok _, rest) =>
              (.ok (), { b with fields := Fields.set b.fields name (.variadic rest) })
            | (.error fault, _) => (.error fault, b)
      | _ => (.error unexpected, b)

end Binding
end SlotTree

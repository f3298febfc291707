import SlotTree.Reading.Expression
import SlotTree.Token.Stream
import SlotTree.Tree.Block

/-!
# Reading scripts

A script is a sequence of statements, each on a logical line of its own or separated by
semicolons.  What a line is can be told from the tokens on it that stand outside of
brackets (`classify`): a colon makes it the declaration or definition of a variable, an
equals sign an assignment, which the tree has no node for, and a line with neither is an
expression.  After `lambda` neither counts, since both belong to it.

Statements that start with a word of their own are recognised by that word and refused.
-/

namespace SlotTree
namespace Reading

open Parse

/-- What a logical line is. -/
inductive LineKind where
  | expression
  | annotated
  | assignment (node : String)
  deriving DecidableEq, Repr

/-- Classifies the rest of a line, with the depth of brackets and whether `lambda` has
been seen. -/
def classifyFrom : (depth : Nat) → (inLambda : Bool) → List Token → LineKind
  | _, _, [] => .expression
  | depth, inLambda, t :: ts =>
    if t.kind.isOpening then classifyFrom (depth + 1) inLambda ts
    else if t.kind.isClosing then classifyFrom (depth - 1) inLambda ts
    else if 0 < depth then classifyFrom depth inLambda ts
    else if t.kind.isLineEnd then .expression
    else if t.kind == .reserved .lambda_ then classifyFrom depth true ts
    else if t.kind == .assignment && !inLambda then .assignment "Assign"
    else if t.kind == .augmentedAssignment then .assignment "AugAssign"
    else if t.kind == .colon && !inLambda then .annotated
    else classifyFrom depth inLambda ts

/-- Classifies the line that starts at the cursor. -/
def classify (c : Cursor) : LineKind := classifyFrom 0 false c.ahead

/-- The end of a statement: a line end, a semicolon with or without one, or the end of the
script. -/
def lineEnd : Parse Unit := do
  match ← look Cursor.kind with
  | .semicolon => do
    let _ ← advance
    if (← look Cursor.kind) == .newline then
      let _ ← advance
      pure ()
    else pure ()
  | .newline => do
    let _ ← advance
    pure ()
  | .eof => pure ()
  | _ => unexpected

/-- An expression as a statement. -/
def expressionStmt (lang : Language) : Parse Stmt := do
  let value ← valueExpr lang
  match Stmt.ofExpr value value.span with
  | .ok s => pure s
  | .error fault => fail (fault.moveTo value.span.start)

/-- Sets the declared type of a fresh variable statement. -/
def withType (s : Stmt) (declared : Ty × Span) : Parse Stmt :=
  match s.setType? declared.1 declared.2 with
  | some (.ok _, s) => pure s
  | some (.error fault, _) => fail fault
  | none => pure s

/-- Sets the value of a definition. -/
def withValue (s : Stmt) (value : Expr) : Parse Stmt :=
  match s.setValue? value with
  | some (.ok _, s) => pure s
  | some (.error fault, _) => fail (fault.moveTo value.span.start)
  | none => pure s

/-- The declaration or definition of a variable. -/
def annotatedStmt (lang : Language) : Parse Stmt := do
  let c ← look id
  if c.kind != .identifier || c.peek 1 != .colon then
    failHere (.featureNotSupported "annotated assignment to a non-name target")
  else
    let target ← expect .identifier
    let _ ← expect .colon
    let declared ← typeExpr lang
    if (← look Cursor.kind) != .assignment then
      withType (.declare target.text ⟨target.span.start, declared.2.stop⟩) declared
    else
      let _ ← expect .assignment
      let value ← valueExpr lang
      let s ← withType (.define target.text ⟨target.span.start, value.span.stop⟩) declared
      withValue s value

/-- The node that a list of decorators belongs to. -/
def decoratedNode (c : Cursor) : String :=
  match c.ahead.find? fun t => t.kind == .reserved .def_ || t.kind == .reserved .class_ with
  | some t => if t.kind == .reserved .class_ then "ClassDef" else "FunctionDef"
  | none => "FunctionDef"

/-- The node that a statement would need, judged by its first token. -/
def statementNode? (c : Cursor) : Option String :=
  match c.kind with
  | .at_ => some (decoratedNode c)
  | .reserved w =>
    match w with
    | .def_ => some "FunctionDef"
    | .class_ => some "ClassDef"
    | .async_ =>
      match c.peek 1 with
      | .reserved .for_ => some "AsyncFor"
      | .reserved .with_ => some "AsyncWith"
      | _ => some "AsyncFunctionDef"
    | .return_ => some "Return"
    | .del_ => some "Delete"
    | .for_ => some "For"
    | .while_ => some "While"
    | .if_ | .elif_ | .else_ => some "If"
    | .with_ => some "With"
    | .try_ | .except_ | .finally_ => some "Try"
    | .raise_ => some "Raise"
    | .assert_ => some "Assert"
    | .import_ => some "Import"
    | .from_ => some "ImportFrom"
    | .global_ => some "Global"
    | .nonlocal_ => some "Nonlocal"
    | .pass_ => some "Pass"
    | .break_ => some "Break"
    | .continue_ => some "Continue"
    | _ => none
  | _ => none

/-- Refuses a statement by its first token. -/
def unsupportedStmt : Parse Stmt := fun c =>
  match statementNode? c with
  | some node => (.error (notSupported node c.position), c)
  | none => (.error c.unexpected, c)

/-- A statement without its end. -/
def stmtBody (lang : Language) : Parse Stmt := do
  let c ← look id
  if lang.grammar.startsStatement c.kind then unsupportedStmt
  else
    match classify c with
    | .annotated => annotatedStmt lang
    | .assignment node => fail (notSupported node c.position)
    | .expression => expressionStmt lang

/-- A statement with its end. -/
def stmt (lang : Language) : Parse Stmt := do
  let s ← stmtBody lang
  lineEnd
  pure s

/-- Statements up to the end of the script, in at most so many rounds. -/
def stmts (lang : Language) : (rounds : Nat) → Parse (List Stmt)
  | 0 => unexpected
  | rounds + 1 => do
    if (← look Cursor.hasTokens) then
      let first ← stmt lang
      let rest ← stmts lang rounds
      pure (first :: rest)
    else pure []

/-- A whole script. -/
def script (lang : Language) (file : String) : Parse Block := do
  let body ← stmts lang (← look Cursor.remaining)
  let stop ← look Cursor.position
  pure ⟨body, ⟨⟨0, file⟩, stop⟩⟩

/-- The name of a script that comes from no file. -/
def shellName : String := "shell"

/-- Reads a list of tokens as a script. -/
def readTokens (lang : Language) (tokens : List Token) (file : String) : Except Fault Block :=
  (script lang file (.ofTokens tokens file)).1

/-- Reads a source text as a script. -/
def readSource (source : String) (file : String) : Except Fault Block :=
  match tokenize source file with
  | .ok tokens => readTokens .default tokens file
  | .error fault => .error fault

end Reading
end SlotTree

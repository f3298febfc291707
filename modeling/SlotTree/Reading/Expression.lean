import SlotTree.Reading.Types
import SlotTree.Reading.Number
import SlotTree.Tree.Callable

/-!
# Reading expressions

An expression is a constant, a name or an expression in parentheses, followed by any
number of calls.  Everything else that may open or follow an expression in Python is
recognised and refused with the name of the node that would be needed.

The arguments of a call are read before they are bound, so that a fault in the text of a
later argument is found before a fault in the type of an earlier one.  What is called
takes the arguments itself if it is a callable that has not been called yet; otherwise it
becomes the callee of a new call.  A fault of binding is moved to where the argument
starts.

As with annotations, the levels of nesting and the rounds of the loops are bounded by the
tokens that are left, of which each takes at least one.
-/

namespace SlotTree
namespace Reading

open Parse

/-! ## Constants -/

/-- A number. -/
def number : Parse Expr := do
  let token ← advance
  match Number.read token.text with
  | .ok v => pure (.ofLiteral v token.span)
  | .error cause => fail ⟨cause, token.span.start⟩

/-- Adjacent string literals, which are one constant. -/
def text : Parse Expr := do
  let start ← look Cursor.position
  let tokens ← takeWhile TokenKind.isText
  let value := String.join (tokens.map Token.text)
  let hasBytes := tokens.any fun t => t.kind == .bytes
  let hasText := tokens.any fun t => t.kind != .bytes
  if hasBytes && hasText then
    fail ⟨.unexpectedTokenDetailed value "cannot mix bytes and nonbytes literals", start⟩
  else if hasBytes then fail ⟨.constantNotSupported "bytes", start⟩
  else if tokens.any fun t => t.kind == .formatString then fail (notSupported "JoinedStr" start)
  else
    let stop := (tokens.getLast?.map fun t => t.span.stop).getD start
    pure (.ofLiteral (.str value) ⟨start, stop⟩)

/-- A constant. -/
def constant : Parse Expr := do
  match ← look Cursor.kind with
  | .reserved .true_ => do
    let token ← advance
    pure (.ofLiteral (.bool true) token.span)
  | .reserved .false_ => do
    let token ← advance
    pure (.ofLiteral (.bool false) token.span)
  | .reserved .none_ => do
    let token ← advance
    pure (.ofLiteral .none token.span)
  | .number => number
  | .string | .bytes | .formatString => text
  | .ellipsis => failHere (.constantNotSupported "ellipsis")
  | _ => unexpected

/-! ## Names and groups -/

/-- A builtin, or else a variable. -/
def name (lang : Language) : Parse Expr := do
  let token ← expect .identifier
  match lang.builtins.find? token.text with
  | some constructor => pure (constructor token.span)
  | none => pure (.ofName token.text token.span)

/-- An expression in parentheses. -/
def group (inner : Parse Expr) : Parse Expr := do
  let opening ← expect .openParen
  if (← look Cursor.kind) == .closeParen then fail (notSupported "Tuple" opening.span.start)
  else
    let e ← inner
    match ← look Cursor.kind with
    | .comma => fail (notSupported "Tuple" opening.span.start)
    | .reserved .for_ => fail (notSupported "GeneratorExp" opening.span.start)
    | _ => do
      let _ ← expect .closeParen
      pure e

/-! ## Calls -/

/-- An argument of a call, with the keyword that it is passed under. -/
structure Argument where
  keyword : Option String
  value : Expr

/-- One argument. -/
def argument (inner : Parse Expr) : Parse Argument := do
  let c ← look id
  match c.kind with
  | .star => fail (notSupported "Starred" c.position)
  | .doubleStar => fail ⟨.featureNotSupported "keyword argument unpacking", c.position⟩
  | kind =>
    if kind == .identifier && c.peek 1 == .assignment then
      let keyword ← advance
      let _ ← advance
      let value ← inner
      pure ⟨some keyword.text, value⟩
    else
      let value ← inner
      if (← look Cursor.kind) == .reserved .for_ then
        fail (notSupported "GeneratorExp" value.span.start)
      else pure ⟨none, value⟩

/-- The arguments up to the closing parenthesis, in at most so many rounds. A comma may
stand after the last one. -/
def arguments (inner : Parse Expr) : (rounds : Nat) → Parse (List Argument)
  | 0 => unexpected
  | rounds + 1 => do
    if (← look Cursor.kind) == .closeParen then pure []
    else
      let first ← argument inner
      if (← look Cursor.kind) == .comma then
        let _ ← advance
        let rest ← arguments inner rounds
        pure (first :: rest)
      else pure [first]

/-- Binds arguments to a callee, one after the other. -/
def bindArguments (closing : Position) (callee : Expr) : List Argument → Except Fault Expr
  | [] => .ok callee
  | a :: rest =>
    let outcome :=
      match a.keyword with
      | some keyword => callee.addKeyword? keyword a.value
      | none => callee.addArgument? a.value
    match outcome with
    | none => .error (notSupported "Call" closing)
    | some (.error fault, _) => .error (fault.moveTo a.value.span.start)
    | some (.ok _, callee) => bindArguments closing callee rest

/-- What the arguments are bound to: the expression itself if it is a callable that has
not been called yet, otherwise a call of it. -/
def calleeOf (left : Expr) (stop : Position) : Except Fault Expr :=
  if left.isInvoked? == some false then .ok left
  else
    match left.callOf ⟨left.span.start, stop⟩ with
    | .ok callee => .ok callee
    | .error fault => .error (fault.moveTo left.span.start)

/-- The arguments of a call of an expression. -/
def call (inner : Parse Expr) (left : Expr) : Parse Expr := do
  let _ ← expect .openParen
  let args ← arguments inner (← look Cursor.remaining)
  let closing ← expect .closeParen
  let callee ← lift (calleeOf left closing.span.stop)
  let bound ← lift (bindArguments closing.span.start callee args)
  pure bound.markInvoked

/-! ## What the tree has no node for -/

/-- The kind of display that curly brackets enclose, judged by what stands directly
inside them. -/
def curlyNode? : (depth : Nat) → List Token → Option String
  | _, [] => none
  | depth, t :: ts =>
    if t.kind.isOpening then curlyNode? (depth + 1) ts
    else if t.kind.isClosing then if depth ≤ 1 then none else curlyNode? (depth - 1) ts
    else if depth == 1 && (t.kind == .colon || t.kind == .doubleStar) then some "Dict"
    else if depth == 1 && t.kind == .comma then some "Set"
    else curlyNode? depth ts

/-- The node of a display in curly brackets. -/
def curlyNode (c : Cursor) : String :=
  match curlyNode? 0 c.ahead with
  | some node => node
  | none => if c.peek 1 == .closeCurly then "Dict" else "Set"

/-- The node that an opening token would need. -/
def openingNode? (c : Cursor) : Option String :=
  match c.kind with
  | .openBracket => some "List"
  | .openCurly => some (curlyNode c)
  | .dash | .plus | .tilde | .reserved .not_ => some "UnaryOp"
  | .star => some "Starred"
  | .reserved .lambda_ => some "Lambda"
  | .reserved .await_ => some "Await"
  | .reserved .yield_ => some "Yield"
  | _ => none

/-- The node that a token after an expression would need. -/
def followingNode? : TokenKind → Option String
  | .dot => some "Attribute"
  | .openBracket => some "Subscript"
  | .reserved .if_ => some "IfExp"
  | .walrus => some "NamedExpr"
  | .reserved .and_ | .reserved .or_ => some "BoolOp"
  | .less | .lessEquals | .greater | .greaterEquals | .equals | .notEquals
  | .reserved .in_ | .reserved .is_ | .reserved .not_ => some "Compare"
  | .plus | .dash | .star | .doubleStar | .slash | .doubleSlash | .percent | .at_
  | .pipe | .ampersand | .caret | .leftShift | .rightShift => some "BinOp"
  | _ => none

/-- Refuses an expression by the token that opens it. -/
def unsupportedOpening : Parse Expr := fun c =>
  match openingNode? c with
  | some node => (.error (notSupported node c.position), c)
  | none => (.error c.unexpected, c)

/-- Refuses an expression by the token that follows its first part. -/
def unsupportedFollowing (left : Expr) : Parse Expr := fun c =>
  match followingNode? c.kind with
  | some node => (.error (notSupported node left.span.start), c)
  | none => (.error c.unexpected, c)

/-! ## Expressions -/

/-- What opens an expression. -/
def openExpr (lang : Language) (inner : Parse Expr) : Parse Expr := do
  match lang.grammar.opening? (← look Cursor.kind) with
  | none => unexpected
  | some .constant => constant
  | some .name => name lang
  | some .group => group inner
  | some .unsupported => unsupportedOpening

/-- What follows an expression, as long as it binds more strongly than the given power. -/
def followExpr (lang : Language) (inner : Parse Expr) (power : Power) :
    (rounds : Nat) → Expr → Parse Expr
  | 0, _ => unexpected
  | rounds + 1, left => do
    let kind ← look Cursor.kind
    match lang.grammar.power? kind with
    | none => pure left
    | some next =>
      if next.rank ≤ power.rank then pure left
      else
        match lang.grammar.following? kind with
        | none => unexpected
        | some (_, .call) => do
          let left ← call inner left
          followExpr lang inner power rounds left
        | some (_, .unsupported) => unsupportedFollowing left

/-- Reads an expression that goes down at most so many levels. -/
def exprUpTo (lang : Language) : (levels : Nat) → Power → Parse Expr
  | 0, _ => unexpected
  | levels + 1, power => do
    let inner := exprUpTo lang levels .lowest
    let left ← openExpr lang inner
    followExpr lang inner power (← look Cursor.remaining) left

/-- Reads an expression. -/
def expr (lang : Language) (power : Power) : Parse Expr := fun c =>
  exprUpTo lang c.remaining power c

/-- Reads an expression in the place of a value, where a comma would make a tuple. -/
def valueExpr (lang : Language) : Parse Expr := do
  let value ← expr lang .lowest
  if (← look Cursor.kind) == .comma then fail (notSupported "Tuple" value.span.start)
  else pure value

end Reading
end SlotTree

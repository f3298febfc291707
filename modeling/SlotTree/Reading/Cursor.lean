import SlotTree.Fault
import SlotTree.Token.Basic

/-!
# Reading from a list of tokens

A cursor stands in front of a token.  The list of tokens is always closed by one that
says that it ends, and the cursor never moves past that one, so there is a current token
at every moment.  The closing token is kept apart from the tokens ahead of it; that it
closes the list is then not a condition on the list but part of its shape.

A token that says that the list ends may also stand in the middle of a list that was put
together by hand.  Such a token is one like any other here, and the cursor can be moved
past it.

A `Parse` is a function on cursors that answers or fails, and it leaves a cursor in
either case: where reading stopped is known also when it failed.  It is a plain function
with the obvious way of doing one thing after another (`pure_run`, `bind_run`).
-/

namespace SlotTree

/-- A place in a list of tokens. -/
structure Cursor where
  /-- The end of the token before, or the start of the file. -/
  previousEnd : Position
  /-- The tokens from the current one on, without the closing one. -/
  ahead : List Token
  /-- The text of the closing token. -/
  endText : String
  /-- The span of the closing token. -/
  endSpan : Span

namespace Cursor

/-- The token that closes the list. -/
def closing (c : Cursor) : Token := ⟨.eof, c.endText, c.endSpan⟩

/-- The cursor at the start of a list of tokens. A closing token is added unless the list
has one at its end. -/
def ofTokens (tokens : List Token) (file : String) : Cursor :=
  let start : Position := ⟨0, file⟩
  match tokens.getLast? with
  | none => ⟨start, [], "EOF", ⟨start, start⟩⟩
  | some last =>
    if last.kind == .eof then ⟨start, tokens.dropLast, last.text, last.span⟩
    else ⟨start, tokens, "EOF", ⟨last.span.stop, last.span.stop⟩⟩

/-- The current token. -/
def current (c : Cursor) : Token := c.ahead.headD c.closing

/-- The kind of the current token. -/
def kind (c : Cursor) : TokenKind := c.current.kind

/-- The kind of the token so many places ahead; past the list there is only its end. -/
def peek (c : Cursor) (offset : Nat) : TokenKind :=
  match c.ahead[offset]? with
  | some t => t.kind
  | none => .eof

/-- How many tokens are left, the closing one included. -/
def remaining (c : Cursor) : Nat := c.ahead.length + 1

/-- Where the current token starts. -/
def position (c : Cursor) : Position := c.current.span.start

/-- Moves past the current token, unless it is the closing one. -/
def advance (c : Cursor) : Cursor :=
  match c.ahead with
  | [] => c
  | t :: ts => { c with previousEnd := t.span.stop, ahead := ts }

/-- Whether the current token is one of the script. -/
def hasTokens (c : Cursor) : Bool := c.kind != .eof

/-- The fault of a current token that cannot stand here. -/
def unexpected (c : Cursor) : Fault := ⟨.unexpectedToken c.current.shown, c.position⟩

@[simp] theorem length_ahead_advance (c : Cursor) :
    c.advance.ahead.length = c.ahead.length - 1 := by
  unfold advance
  split <;> simp_all

end Cursor

/-- A way of reading tokens: it answers or fails, and leaves a cursor in either case. -/
def Parse (α : Type) : Type := Cursor → Edited Cursor α

namespace Parse

variable {α β : Type}

/-- Reads nothing. -/
protected def pure (a : α) : Parse α := fun c => (.ok a, c)

/-- Reads one thing after another. -/
protected def bind (p : Parse α) (f : α → Parse β) : Parse β := fun c =>
  match p c with
  | (.ok a, c) => f a c
  | (.error fault, c) => (.error fault, c)

instance : Monad Parse where
  pure := Parse.pure
  bind := Parse.bind

@[simp] theorem pure_run (a : α) (c : Cursor) : (pure a : Parse α) c = (.ok a, c) := rfl

theorem bind_run (p : Parse α) (f : α → Parse β) (c : Cursor) :
    (p >>= f) c =
      match p c with
      | (.ok a, c) => f a c
      | (.error fault, c) => (.error fault, c) := rfl

/-- Fails. -/
def fail (fault : Fault) : Parse α := fun c => (.error fault, c)

/-- Answers something about the cursor. -/
def look (f : Cursor → α) : Parse α := fun c => (.ok (f c), c)

/-- Fails because of the current token. -/
def unexpected : Parse α := fun c => (.error c.unexpected, c)

/-- Fails at the current token. -/
def failHere (cause : Cause) : Parse α := fun c => (.error ⟨cause, c.position⟩, c)

/-- Goes on with an outcome that does not depend on the tokens. -/
def lift : Except Fault α → Parse α
  | .ok a => pure a
  | .error fault => fail fault

/-- Answers the current token and moves past it. -/
def advance : Parse Token := fun c => (.ok c.current, c.advance)

/-- Moves past a token of the given kind, or fails with the given fault. -/
def expectOr (kind : TokenKind) (fault : Cursor → Fault) : Parse Token := fun c =>
  if c.kind == kind then advance c else (.error (fault c), c)

/-- Moves past a token of the given kind. -/
def expect (kind : TokenKind) : Parse Token := expectOr kind Cursor.unexpected

/-- Moves past the tokens of the given kinds. -/
def takeWhile (p : TokenKind → Bool) : Parse (List Token) := fun c =>
  let taken := c.ahead.takeWhile fun t => p t.kind
  (.ok taken, taken.foldl (fun c _ => c.advance) c)

end Parse
end SlotTree

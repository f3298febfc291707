import SlotTree.Builtin.Registry
import SlotTree.Token.Kind

/-!
# What a token can do

Expressions are read by precedence.  A token may *open* an expression, and it may
*follow* one that has been read; what it does in either place, and how strongly it binds
what stands before it, is a table.  Most entries of the tables only recognise that
something is there which the tree has no node for.

A token that opens an expression and does not follow one still binds, with the greatest
strength: two expressions side by side are a fault at the second one, not the end of the
first.

The tables are a value, `Grammar`.  `Grammar.script` is the language of scripts, and
`Grammar.empty` knows no token at all, which is how a reader behaves before it was given
its tables.
-/

namespace SlotTree

/-- How strongly a token binds what stands before it, from weakest to strongest. -/
inductive Power where
  | lowest | comma | assignment | ternary | logical | relational | bitwise | additive
  | multiplicative | unary | exponent | call | member | primary
  deriving DecidableEq, Repr

namespace Power

/-- The powers with their names, from weakest to strongest. -/
def table : List (Power × String) :=
  [(lowest, "Default"), (comma, "Comma"), (assignment, "Assignment"), (ternary, "Ternary"),
    (logical, "Logical"), (relational, "Relational"), (bitwise, "Bitwise"),
    (additive, "Additive"), (multiplicative, "Multiplicative"), (unary, "Unary"),
    (exponent, "Power"), (call, "Call"), (member, "Member"), (primary, "Primary")]

/-- The power with the given name. -/
def ofName? (name : String) : Option Power :=
  (table.find? fun row => row.2 == name).map fun row => row.1

/-- The place of a power in their order. -/
def rank : Power → Nat
  | lowest => 0
  | comma => 1
  | assignment => 2
  | ternary => 3
  | logical => 4
  | relational => 5
  | bitwise => 6
  | additive => 7
  | multiplicative => 8
  | unary => 9
  | exponent => 10
  | call => 11
  | member => 12
  | primary => 13

end Power

/-- What a token does that opens an expression. -/
inductive Opening where
  | constant
  | name
  | group
  | unsupported
  deriving DecidableEq, Repr

/-- What a token does that follows an expression. -/
inductive Following where
  | call
  | unsupported
  deriving DecidableEq, Repr

/-- What a token does that opens an annotation. -/
inductive TypeOpening where
  | symbol
  | none
  deriving DecidableEq, Repr

/-- What a token does that follows an annotation. -/
inductive TypeFollowing where
  | subscript
  | union
  deriving DecidableEq, Repr

/-- The tables of a language. -/
structure Grammar where
  opening? : TokenKind → Option Opening
  following? : TokenKind → Option (Power × Following)
  /-- Whether a token starts a statement that is no expression. -/
  startsStatement : TokenKind → Bool
  typeOpening? : TokenKind → Option TypeOpening
  typeFollowing? : TokenKind → Option (Power × TypeFollowing)

namespace Grammar

/-- The tables that know no token. -/
def empty : Grammar where
  opening? _ := none
  following? _ := none
  startsStatement _ := false
  typeOpening? _ := none
  typeFollowing? _ := none

/-- What opens an expression of a script. -/
def scriptOpening? : TokenKind → Option Opening
  | .number | .string | .bytes | .formatString | .ellipsis => some .constant
  | .reserved .true_ | .reserved .false_ | .reserved .none_ => some .constant
  | .identifier => some .name
  | .openParen => some .group
  | .openBracket | .openCurly | .dash | .plus | .tilde | .star => some .unsupported
  | .reserved .not_ | .reserved .lambda_ | .reserved .await_ | .reserved .yield_ =>
    some .unsupported
  | _ => none

/-- What follows an expression of a script. -/
def scriptFollowing? : TokenKind → Option (Power × Following)
  | .walrus => some (.assignment, .unsupported)
  | .reserved .if_ => some (.ternary, .unsupported)
  | .reserved .and_ | .reserved .or_ => some (.logical, .unsupported)
  | .less | .lessEquals | .greater | .greaterEquals | .equals | .notEquals
  | .reserved .in_ | .reserved .is_ | .reserved .not_ => some (.relational, .unsupported)
  | .pipe | .ampersand | .caret | .leftShift | .rightShift => some (.bitwise, .unsupported)
  | .plus | .dash => some (.additive, .unsupported)
  | .star | .slash | .doubleSlash | .percent | .at_ => some (.multiplicative, .unsupported)
  | .doubleStar => some (.exponent, .unsupported)
  | .openParen => some (.call, .call)
  | .dot | .openBracket => some (.member, .unsupported)
  | _ => none

/-- What starts a statement of a script that is no expression. -/
def scriptStartsStatement : TokenKind → Bool
  | .at_ => true
  | .reserved w =>
    match w with
    | .def_ | .class_ | .async_ | .return_ | .del_ | .for_ | .while_ | .if_ | .elif_ | .else_
    | .with_ | .try_ | .except_ | .finally_ | .raise_ | .assert_ | .import_ | .from_
    | .global_ | .nonlocal_ | .pass_ | .break_ | .continue_ => true
    | _ => false
  | _ => false

/-- What opens an annotation. -/
def scriptTypeOpening? : TokenKind → Option TypeOpening
  | .identifier => some .symbol
  | .reserved .none_ => some .none
  | _ => none

/-- What follows an annotation. -/
def scriptTypeFollowing? : TokenKind → Option (Power × TypeFollowing)
  | .openBracket => some (.call, .subscript)
  | .pipe => some (.bitwise, .union)
  | _ => none

/-- The language of scripts. -/
def script : Grammar where
  opening? := scriptOpening?
  following? := scriptFollowing?
  startsStatement := scriptStartsStatement
  typeOpening? := scriptTypeOpening?
  typeFollowing? := scriptTypeFollowing?

/-- How strongly a token binds an expression before it. -/
def power? (g : Grammar) (kind : TokenKind) : Option Power :=
  match g.following? kind with
  | some (power, _) => some power
  | none => if (g.opening? kind).isSome then some .primary else none

/-- How strongly a token binds an annotation before it. -/
def typePower? (g : Grammar) (kind : TokenKind) : Option Power :=
  match g.typeFollowing? kind with
  | some (power, _) => some power
  | none => if (g.typeOpening? kind).isSome then some .primary else none

end Grammar

/-- A language: its tables, and the names that stand for builtins. -/
structure Language where
  grammar : Grammar
  builtins : Registry

namespace Language

/-- The language of scripts with the builtins that every script knows. -/
def default : Language := ⟨.script, .default⟩

end Language
end SlotTree

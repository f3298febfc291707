/-!
# Kinds of tokens

The kinds fall into the layout tokens that stand for the line structure, the tokens with
a text of their own (numbers, strings, names), brackets, operators, and the reserved
words.  The reserved words are a type of their own, because they are recognised in
another way than everything else: as names that are on a list.

The name of a kind is what diagnostics and token listings print.
-/

namespace SlotTree

/-- The words that cannot be names. -/
inductive Reserved where
  | false_ | none_ | true_ | and_ | as_ | assert_ | async_ | await_ | break_ | class_
  | continue_ | def_ | del_ | elif_ | else_ | except_ | finally_ | for_ | from_ | global_
  | if_ | import_ | in_ | is_ | lambda_ | nonlocal_ | not_ | or_ | pass_ | raise_
  | return_ | try_ | while_ | with_ | yield_
  deriving DecidableEq, Repr

namespace Reserved

/-- The reserved words, as they are spelled, with the names of their kinds. -/
def table : List (Reserved × String × String) :=
  [(false_, "False", "False"), (none_, "None", "None"), (true_, "True", "True"),
    (and_, "and", "And"), (as_, "as", "As"), (assert_, "assert", "Assert"),
    (async_, "async", "Async"), (await_, "await", "Await"), (break_, "break", "Break"),
    (class_, "class", "Class"), (continue_, "continue", "Continue"), (def_, "def", "Def"),
    (del_, "del", "Del"), (elif_, "elif", "Elif"), (else_, "else", "Else"),
    (except_, "except", "Except"), (finally_, "finally", "Finally"), (for_, "for", "For"),
    (from_, "from", "From"), (global_, "global", "Global"), (if_, "if", "If"),
    (import_, "import", "Import"), (in_, "in", "In"), (is_, "is", "Is"),
    (lambda_, "lambda", "Lambda"), (nonlocal_, "nonlocal", "Nonlocal"), (not_, "not", "Not"),
    (or_, "or", "Or"), (pass_, "pass", "Pass"), (raise_, "raise", "Raise"),
    (return_, "return", "Return"), (try_, "try", "Try"), (while_, "while", "While"),
    (with_, "with", "With"), (yield_, "yield", "Yield")]

/-- The reserved word with the given spelling. -/
def ofWord? (word : String) : Option Reserved :=
  (table.find? fun row => row.2.1 == word).map fun row => row.1

/-- The name of the kind of a reserved word. -/
def kindName (w : Reserved) : String :=
  match table.find? fun row => row.1 == w with
  | some row => row.2.2
  | none => ""

end Reserved

/-- The kinds of tokens. -/
inductive TokenKind where
  -- layout
  | eof | newline | indent | dedent
  -- with a text of their own
  | number | string | bytes | formatString | identifier
  -- brackets
  | openBracket | closeBracket | openCurly | closeCurly | openParen | closeParen
  -- operators and delimiters
  | assignment | augmentedAssignment | walrus | equals | notEquals
  | less | lessEquals | greater | greaterEquals
  | dot | ellipsis | semicolon | colon | comma | arrow
  | plus | dash | star | doubleStar | slash | doubleSlash | percent | at_
  | pipe | ampersand | caret | tilde | leftShift | rightShift
  | reserved (word : Reserved)
  deriving DecidableEq, Repr

namespace TokenKind

/-- The kinds that are no reserved words, with their names. -/
def table : List (TokenKind × String) :=
  [(eof, "EOF"), (newline, "Newline"), (indent, "Indent"), (dedent, "Dedent"),
    (number, "Number"), (string, "String"), (bytes, "Bytes"), (formatString, "FString"),
    (identifier, "Identifier"), (openBracket, "OpenBracket"), (closeBracket, "CloseBracket"),
    (openCurly, "OpenCurly"), (closeCurly, "CloseCurly"), (openParen, "OpenParen"),
    (closeParen, "CloseParen"), (assignment, "Assignment"),
    (augmentedAssignment, "AugAssign"), (walrus, "Walrus"), (equals, "Equals"),
    (notEquals, "NotEquals"), (less, "Less"), (lessEquals, "LessEquals"),
    (greater, "Greater"), (greaterEquals, "GreaterEquals"), (dot, "Dot"),
    (ellipsis, "Ellipsis"), (semicolon, "Semicolon"), (colon, "Colon"), (comma, "Comma"),
    (arrow, "Arrow"), (plus, "Plus"), (dash, "Dash"), (star, "Star"),
    (doubleStar, "DoubleStar"), (slash, "Slash"), (doubleSlash, "DoubleSlash"),
    (percent, "Percent"), (at_, "At"), (pipe, "Pipe"), (ampersand, "Ampersand"),
    (caret, "Caret"), (tilde, "Tilde"), (leftShift, "LeftShift"), (rightShift, "RightShift")]

/-- The name of a kind. -/
def name : TokenKind → String
  | reserved w => w.kindName
  | k =>
    match table.find? fun row => row.1 == k with
    | some row => row.2
    | none => ""

/-- All kinds. -/
def all : List TokenKind :=
  table.map (fun row => row.1) ++ Reserved.table.map fun row => reserved row.1

/-- The kind with the given name. -/
def ofName? (text : String) : Option TokenKind := all.find? fun k => k.name == text

/-- Whether the kind opens a bracket. -/
def isOpening : TokenKind → Bool
  | openParen | openBracket | openCurly => true
  | _ => false

/-- Whether the kind closes a bracket. -/
def isClosing : TokenKind → Bool
  | closeParen | closeBracket | closeCurly => true
  | _ => false

/-- Whether the kind is one of the string literals. -/
def isText : TokenKind → Bool
  | string | bytes | formatString => true
  | _ => false

/-- Whether a token of the kind is listed with its text. -/
def showsText : TokenKind → Bool
  | number | string | bytes | formatString | identifier | augmentedAssignment => true
  | _ => false

/-- Whether the kind closes a logical line. -/
def isLineEnd : TokenKind → Bool
  | newline | semicolon | eof => true
  | _ => false

/-- The depth of brackets after a token of the kind. A closing bracket too many is
passed over. -/
def depthAfter (kind : TokenKind) (depth : Nat) : Nat :=
  if kind.isOpening then depth + 1 else if kind.isClosing then depth - 1 else depth

end TokenKind
end SlotTree

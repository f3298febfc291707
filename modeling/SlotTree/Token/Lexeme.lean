import SlotTree.Fault
import SlotTree.Text.Lines
import SlotTree.Text.Name
import SlotTree.Token.Basic
import SlotTree.Token.Escape

/-!
# Lexemes

A lexeme is a non-empty stretch at the start of a text that is read in one go.  It is
*trivia* that no token stands for (blanks, comments, a line end after a backslash), a
line end, or a token.  What a text starts with does not depend on what came before it;
where lines begin, how deep they are indented and whether a line end counts is decided
by the scanner, not here.

The rules are tried in a fixed order (`rules`) and the first that applies wins.  The
order matters in three places.  A string with a letter in front of its quote is tried
before names, since the letter alone is a name.  Numbers are tried before operators,
since `.5` starts with a dot.  And the operators are listed with the longer ones first
wherever one is the beginning of another.

A string literal is the one lexeme that can be spoiled: its beginning is recognised and
its end is missing.  Every other text that no rule applies to is refused at its first
character.
-/

namespace SlotTree

/-- What a lexeme contributes to the token stream. -/
inductive Piece where
  | trivia
  | lineEnd
  | token (kind : TokenKind) (text : String)
  deriving DecidableEq, Repr

/-- A stretch of text that is read in one go. -/
structure Lexeme where
  piece : Piece
  chars : List Char
  deriving DecidableEq, Repr

namespace Lexeme

/-! ## Blanks, comments and line ends -/

/-- Whether the character separates tokens on a line. -/
def isSpace (c : Char) : Bool := c == ' ' || c == '\t' || c.toNat == 12

/-- Whether the character belongs to a line end. -/
def isLineEndChar (c : Char) : Bool := c == '\r' || c == '\n'

/-- The line end that the text starts with: a line feed, with or without a carriage
return in front of it. A carriage return alone is none. -/
def leadingLineEnd : List Char → List Char
  | '\n' :: _ => ['\n']
  | '\r' :: '\n' :: _ => ['\r', '\n']
  | _ => []

/-- The line end after a backslash that the text starts with, backslash included. -/
def leadingContinuation : List Char → List Char
  | '\\' :: cs => if (leadingLineEnd cs).isEmpty then [] else '\\' :: leadingLineEnd cs
  | _ => []

/-- The comment that the text starts with, up to the line end. -/
def leadingComment : List Char → List Char
  | '#' :: cs => '#' :: cs.takeWhile fun c => !isLineEndChar c
  | _ => []

/-! ## Numbers -/

/-- Digits, each of which may have one underscore in front of it. -/
def digitRun (isDigit : Char → Bool) : List Char → List Char
  | [] => []
  | c :: cs =>
    if isDigit c then c :: digitRun isDigit cs
    else if c == '_' then
      match cs with
      | d :: ds => if isDigit d then c :: d :: digitRun isDigit ds else []
      | [] => []
    else []

/-- A decimal digit followed by a run of digits. -/
def decimalRun : List Char → List Char
  | c :: cs => if Decimal.isDigit 10 c then c :: digitRun (Decimal.isDigit 10) cs else []
  | [] => []

/-- The exponent that the text starts with: a letter, an optional sign and digits. -/
def leadingExponent : List Char → List Char
  | c :: cs =>
    if c == 'e' || c == 'E' then
      match cs with
      | s :: ds =>
        if s == '+' || s == '-' then
          if (decimalRun ds).isEmpty then [] else c :: s :: decimalRun ds
        else if (decimalRun cs).isEmpty then [] else c :: decimalRun cs
      | [] => []
    else []
  | [] => []

/-- The mark of an imaginary number. -/
def leadingImaginary : List Char → List Char
  | c :: _ => if c == 'j' || c == 'J' then [c] else []
  | [] => []

/-- A numeral followed by its exponent and its imaginary mark, as far as they are
there. -/
def withSuffixes (numeral cs : List Char) : List Char :=
  let exponent := leadingExponent (cs.drop numeral.length)
  numeral ++ exponent ++ leadingImaginary (cs.drop (numeral.length + exponent.length))

/-- The radix that a letter after a zero stands for. -/
def radixOf? (c : Char) : Option Nat :=
  if c == 'x' || c == 'X' then some 16
  else if c == 'o' || c == 'O' then some 8
  else if c == 'b' || c == 'B' then some 2
  else none

/-- A number in another radix than ten: a zero, a letter and at least one digit. -/
def leadingRadix : List Char → List Char
  | '0' :: c :: cs =>
    match radixOf? c with
    | some radix =>
      let figures := digitRun (Decimal.isDigit radix) cs
      if figures.isEmpty then [] else '0' :: c :: figures
    | none => []
  | _ => []

/-- A number with a decimal point: digits on at least one side of it. -/
def leadingPoint (cs : List Char) : List Char :=
  let whole := decimalRun cs
  match cs.drop whole.length with
  | '.' :: rest =>
    let fraction := decimalRun rest
    if whole.isEmpty && fraction.isEmpty then [] else withSuffixes (whole ++ '.' :: fraction) cs
  | _ => []

/-- A number without a decimal point. -/
def leadingWhole (cs : List Char) : List Char :=
  let whole := decimalRun cs
  if whole.isEmpty then [] else withSuffixes whole cs

/-- The number that the text starts with. -/
def leadingNumber (cs : List Char) : List Char :=
  if !(leadingRadix cs).isEmpty then leadingRadix cs
  else if !(leadingPoint cs).isEmpty then leadingPoint cs
  else leadingWhole cs

/-! ## Strings -/

/-- The quote that the text starts with: three of a kind, or one. -/
def leadingQuote : List Char → List Char
  | '\'' :: '\'' :: '\'' :: _ => ['\'', '\'', '\'']
  | '"' :: '"' :: '"' :: _ => ['"', '"', '"']
  | '\'' :: _ => ['\'']
  | '"' :: _ => ['"']
  | _ => []

/-- The marks that may stand in front of a quote, the empty one last. -/
def marks : List (List Char) :=
  [['r', 'b'], ['b', 'r'], ['f', 'r'], ['r', 'f'], ['r'], ['b'], ['u'], ['f'], []]

/-- The mark and the quote that a string literal starts with, the mark in lower case. -/
def stringOpening? (cs : List Char) : Option (List Char × List Char) :=
  marks.findSome? fun mark =>
    let quote := leadingQuote (cs.drop mark.length)
    if (cs.take mark.length).map Text.lowerChar == mark && !quote.isEmpty then some (mark, quote)
    else none

/-- The text of a literal up to its closing quote. A backslash takes the next character
with it; a literal with a single quote ends with its line. -/
def stringBody? (quote : List Char) : List Char → Option (List Char)
  | [] => none
  | c :: cs =>
    if c == '\\' then
      match cs with
      | [] => none
      | d :: ds => (stringBody? quote ds).map fun body => c :: d :: body
    else if c == '\n' && quote.length == 1 then none
    else if quote.isPrefixOf (c :: cs) then some []
    else (stringBody? quote cs).map fun body => c :: body

/-- The kind of a literal with the given mark. -/
def stringKind (mark : List Char) : TokenKind :=
  if mark.contains 'b' then .bytes
  else if mark.contains 'f' then .formatString
  else .string

/-- What a literal with the given mark and body denotes. -/
def stringText (mark body : List Char) : String :=
  String.ofList (if mark.contains 'r' then body else Escape.unescape (mark.contains 'b') body)

/-! ## Brackets and operators -/

/-- Brackets, operators and delimiters in the order in which they are tried. -/
def operators : List (List Char × TokenKind) :=
  [(['('], .openParen), (['['], .openBracket), (['\x7b'], .openCurly),
    ([')'], .closeParen), ([']'], .closeBracket), (['\x7d'], .closeCurly),
    (['.', '.', '.'], .ellipsis),
    (['*', '*', '='], .augmentedAssignment), (['/', '/', '='], .augmentedAssignment),
    (['>', '>', '='], .augmentedAssignment), (['<', '<', '='], .augmentedAssignment),
    (['-', '>'], .arrow), ([':', '='], .walrus), (['=', '='], .equals),
    (['!', '='], .notEquals), (['<', '='], .lessEquals), (['>', '='], .greaterEquals),
    (['*', '*'], .doubleStar), (['/', '/'], .doubleSlash), (['<', '<'], .leftShift),
    (['>', '>'], .rightShift),
    (['+', '='], .augmentedAssignment), (['-', '='], .augmentedAssignment),
    (['*', '='], .augmentedAssignment), (['/', '='], .augmentedAssignment),
    (['%', '='], .augmentedAssignment), (['@', '='], .augmentedAssignment),
    (['&', '='], .augmentedAssignment), (['|', '='], .augmentedAssignment),
    (['^', '='], .augmentedAssignment),
    (['<'], .less), (['>'], .greater), (['='], .assignment), (['+'], .plus), (['-'], .dash),
    (['*'], .star), (['/'], .slash), (['%'], .percent), (['@'], .at_), (['|'], .pipe),
    (['&'], .ampersand), (['^'], .caret), (['~'], .tilde), (['.'], .dot), ([','], .comma),
    ([':'], .colon), ([';'], .semicolon)]

/-! ## The rules -/

/-- A rule: what it makes of the start of a text, if it applies. -/
abbrev Rule : Type := List Char → Option (Except Cause Lexeme)

/-- A lexeme, if there are characters for it. -/
def found (piece : Piece) (chars : List Char) : Option (Except Cause Lexeme) :=
  if chars.isEmpty then none else some (.ok ⟨piece, chars⟩)

/-- Blanks between tokens. -/
def blankRule : Rule := fun cs => found .trivia (cs.takeWhile isSpace)

/-- A line end after a backslash. -/
def continuationRule : Rule := fun cs => found .trivia (leadingContinuation cs)

/-- A comment. -/
def commentRule : Rule := fun cs => found .trivia (leadingComment cs)

/-- A line end. -/
def lineEndRule : Rule := fun cs => found .lineEnd (leadingLineEnd cs)

/-- A string literal. -/
def stringRule : Rule := fun cs =>
  (stringOpening? cs).map fun opening =>
    let (mark, quote) := opening
    match stringBody? quote (cs.drop (mark.length + quote.length)) with
    | none => .error .unterminatedString
    | some body =>
      .ok ⟨.token (stringKind mark) (stringText mark body),
        cs.take (mark.length + quote.length) ++ body ++ quote⟩

/-- A number. -/
def numberRule : Rule := fun cs =>
  let chars := leadingNumber cs
  found (.token .number (String.ofList chars)) chars

/-- The kind of a name: reserved, or an identifier. -/
def nameKind (word : String) : TokenKind :=
  match Reserved.ofWord? word with
  | some w => .reserved w
  | none => .identifier

/-- A name or a reserved word. -/
def nameRule : Rule := fun cs =>
  let chars := Text.leadingName cs
  found (.token (nameKind (String.ofList chars)) (String.ofList chars)) chars

/-- A bracket, operator or delimiter. -/
def operatorRule : Rule := fun cs =>
  (operators.find? fun row => row.1.isPrefixOf cs).map fun row =>
    .ok ⟨.token row.2 (String.ofList row.1), row.1⟩

/-- The rules in the order in which they are tried. -/
def rules : List Rule :=
  [blankRule, continuationRule, commentRule, lineEndRule, stringRule, numberRule, nameRule,
    operatorRule]

/-- The lexeme that a text starts with. -/
def next (cs : List Char) : Except Cause Lexeme :=
  match rules.findSome? fun rule => rule cs with
  | some outcome => outcome
  | none => .error (.unrecognisedToken (String.ofList (cs.take 1)))

/-! ## A lexeme is never empty -/

theorem chars_ne_nil_of_found {piece : Piece} {chars : List Char} {l : Lexeme}
    (h : found piece chars = some (.ok l)) : l.chars ≠ [] := by
  unfold found at h
  split at h
  · simp at h
  · next hne =>
    simp only [Option.some.injEq, Except.ok.injEq] at h
    subst h
    simpa using hne

theorem chars_ne_nil_of_stringRule {cs : List Char} {l : Lexeme}
    (h : stringRule cs = some (.ok l)) : l.chars ≠ [] := by
  unfold stringRule at h
  obtain ⟨⟨mark, quote⟩, hopen, h⟩ := Option.map_eq_some_iff.1 h
  have hquote : quote ≠ [] := by
    obtain ⟨m, -, hm⟩ := List.exists_of_findSome?_eq_some hopen
    simp only at hm
    split at hm
    · next hc =>
      simp only [Option.some.injEq, Prod.mk.injEq] at hm
      obtain ⟨rfl, rfl⟩ := hm
      simp at hc
      exact hc.2
    · simp at hm
  simp only at h
  split at h
  · simp at h
  · simp only [Except.ok.injEq] at h
    subst h
    simp [hquote]

theorem chars_ne_nil_of_operatorRule {cs : List Char} {l : Lexeme}
    (h : operatorRule cs = some (.ok l)) : l.chars ≠ [] := by
  unfold operatorRule at h
  obtain ⟨row, hrow, h⟩ := Option.map_eq_some_iff.1 h
  simp only [Except.ok.injEq] at h
  subst h
  have hall : ∀ row ∈ operators, row.1 ≠ [] := by decide
  exact hall row (List.mem_of_find?_eq_some hrow)

/-- **A lexeme takes up at least one character.** -/
theorem chars_ne_nil_of_next {cs : List Char} {l : Lexeme} (h : next cs = .ok l) :
    l.chars ≠ [] := by
  unfold next at h
  split at h
  · next outcome hrule =>
    subst h
    obtain ⟨rule, hmem, hr⟩ := List.exists_of_findSome?_eq_some hrule
    simp only [rules, List.mem_cons, List.not_mem_nil, or_false] at hmem
    rcases hmem with rfl | rfl | rfl | rfl | rfl | rfl | rfl | rfl
    · exact chars_ne_nil_of_found hr
    · exact chars_ne_nil_of_found hr
    · exact chars_ne_nil_of_found hr
    · exact chars_ne_nil_of_found hr
    · exact chars_ne_nil_of_stringRule hr
    · exact chars_ne_nil_of_found hr
    · exact chars_ne_nil_of_found hr
    · exact chars_ne_nil_of_operatorRule hr
  · simp at h

end Lexeme
end SlotTree

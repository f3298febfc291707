import SlotTree.Decimal.Basic

/-!
# Escapes in string literals

Between the quotes of a string literal a backslash and what follows it may stand for
another character.  `escape` reads one escape, that is the text after a backslash, and
answers what the escape stands for together with the number of characters that it takes
up.  `unescape` goes through a whole literal; it counts down the characters of an escape
that has just been read, so that it is recursion on the text.

An escape that is not known, or that lacks a digit, or that names no character, stands
for itself with its backslash.  Only the backslash and the letter are settled then: the
characters after them are read on as they are, which comes to the same since no digit is
a backslash.

A bytes literal knows one numeric escape only, the one with two digits.
-/

namespace SlotTree
namespace Escape

/-- The character of a code point, unless there is none. -/
def charOf? (n : Nat) : Option Char :=
  if n.isValidChar then some (Char.ofNat n) else none

/-- The number of octal digits at the start of a text, at most three. -/
def octalWidth (cs : List Char) : Nat :=
  ((cs.take 3).takeWhile (Decimal.isDigit 8)).length

/-- The number of hexadecimal digits that an escape letter asks for. -/
def hexWidth? (bytes : Bool) (letter : Char) : Option Nat :=
  if letter == 'x' then some 2
  else if bytes then none
  else if letter == 'u' then some 4
  else if letter == 'U' then some 8
  else none

/-- The character that exactly `width` hexadecimal digits name. -/
def hexChar? (width : Nat) (cs : List Char) : Option Char :=
  let figures := cs.take width
  if figures.length == width && figures.all (Decimal.isDigit 16) then
    charOf? (Decimal.ofDigits 16 figures)
  else none

/-- The character that an escape of one letter stands for. -/
def single? (c : Char) : Option Char :=
  if c == '\\' || c == '\'' || c == '"' then some c
  else if c == 'a' then some '\x07'
  else if c == 'b' then some '\x08'
  else if c == 'f' then some '\x0c'
  else if c == 'n' then some '\n'
  else if c == 'r' then some '\r'
  else if c == 't' then some '\t'
  else if c == 'v' then some '\x0b'
  else none

/-- Reads the escape that follows a backslash: what it stands for, and how many
characters it takes up. -/
def escape (bytes : Bool) : List Char → List Char × Nat
  | [] => (['\\'], 0)
  -- a line end after a backslash is no part of the text
  | '\n' :: _ => ([], 1)
  | '\r' :: '\n' :: _ => ([], 2)
  | '\r' :: _ => ([], 1)
  | c :: cs =>
    match single? c with
    | some d => ([d], 1)
    | none =>
      if Decimal.isDigit 8 c then
        let width := octalWidth (c :: cs)
        ((charOf? (Decimal.ofDigits 8 ((c :: cs).take width))).toList, width)
      else
        match (hexWidth? bytes c).bind fun width => (hexChar? width cs).map fun d => (d, width) with
        | some (d, width) => ([d], width + 1)
        | none => (['\\', c], 1)

/-- Resolves the escapes of a text, after passing over the given number of characters. -/
def unescapeFrom (bytes : Bool) : (skip : Nat) → List Char → List Char
  | _, [] => []
  | skip + 1, _ :: cs => unescapeFrom bytes skip cs
  | 0, c :: cs =>
    if c == '\\' then
      let (meaning, width) := escape bytes cs
      meaning ++ unescapeFrom bytes width cs
    else c :: unescapeFrom bytes 0 cs

/-- Resolves the escapes of a text. -/
def unescape (bytes : Bool) (cs : List Char) : List Char := unescapeFrom bytes 0 cs

end Escape
end SlotTree

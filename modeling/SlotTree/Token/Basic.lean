import SlotTree.Location
import SlotTree.Text.Quoted
import SlotTree.Token.Kind

/-!
# Tokens

A token has a kind, a text and a span.  The text of a string literal is what the
literal denotes, with its escapes resolved; for every other token that stands for
characters of the source it is those characters.
-/

namespace SlotTree

/-- A token. -/
structure Token where
  kind : TokenKind
  text : String
  span : Span
  deriving DecidableEq, Repr

namespace Token

/-- The token as a diagnostic names it: its kind, with the text where that says more. -/
def shown (t : Token) : String :=
  if t.kind.showsText then t.kind.name ++ " (" ++ Text.quoted t.text ++ ")" else t.kind.name

/-- A position in full. -/
def positionListing (p : Position) : String :=
  "Position(" ++ toString p.offset ++ ", " ++ Text.quoted p.file ++ ")"

/-- The token in full, as a line of a token listing. -/
def listing (t : Token) : String :=
  "Token \x7b kind: " ++ t.kind.name ++ ", value: " ++ Text.quoted t.text ++
    ", span: Span \x7b start: " ++ positionListing t.span.start ++ ", end: " ++
    positionListing t.span.stop ++ " \x7d \x7d"

end Token
end SlotTree

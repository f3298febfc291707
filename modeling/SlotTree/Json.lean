import SlotTree.Decimal.Style

/-!
# JSON documents

The tree can be dumped as a JSON document, and this module is the document type and
its two written forms, compact and indented.  Objects are written with their keys in
increasing order, whatever order they were built in, so that a document has one
written form.

Numbers come in two kinds, as in the scripts themselves: whole numbers are written in
full, floating-point numbers always with a point or an exponent.  A number that is not
finite has no JSON form and is written as `null`.
-/

namespace SlotTree

/-- A JSON document. -/
inductive Json where
  | null
  | bool (value : Bool)
  | int (value : Int)
  | float (value : Binary64)
  | str (value : String)
  | arr (items : List Json)
  | obj (entries : List (String × Json))
  deriving Repr, Inhabited

namespace Json

/-- Whether the first text comes strictly before the second, by code points. -/
def precedes : List Char → List Char → Bool
  | _, [] => false
  | [], _ :: _ => true
  | a :: as, b :: bs =>
    if a.toNat < b.toNat then true
    else if b.toNat < a.toNat then false
    else precedes as bs

/-- Puts an entry in its place among entries with increasing keys. -/
def insertEntry {α : Type} (entry : String × α) : List (String × α) → List (String × α)
  | [] => [entry]
  | e :: es =>
    if precedes e.1.toList entry.1.toList then e :: insertEntry entry es else entry :: e :: es

/-- The entries with increasing keys. -/
def sortEntries {α : Type} : List (String × α) → List (String × α)
  | [] => []
  | e :: es => insertEntry e (sortEntries es)

/-- A lower-case hexadecimal digit. -/
def hexDigit (n : Nat) : Char := if n < 10 then Char.ofNat (48 + n) else Char.ofNat (87 + n)

/-- One character of a string. -/
def escapedChar (c : Char) : List Char :=
  if c == '"' then ['\\', '"']
  else if c == '\\' then ['\\', '\\']
  else if c == '\n' then ['\\', 'n']
  else if c == '\r' then ['\\', 'r']
  else if c == '\t' then ['\\', 't']
  else if c.toNat == 8 then ['\\', 'b']
  else if c.toNat == 12 then ['\\', 'f']
  else if c.toNat < 32 then
    ['\\', 'u', '0', '0', hexDigit (c.toNat / 16), hexDigit (c.toNat % 16)]
  else [c]

/-- A string between quotes. -/
def quotedString (s : String) : String :=
  String.ofList ('"' :: s.toList.flatMap escapedChar ++ ['"'])

/-- A floating-point number, or `null` if it is not finite. -/
def floatText (x : Binary64) : String :=
  if x.isFinite then String.ofList (FloatStyle.json.write x) else "null"

mutual

/-- The document on one line, without blanks. -/
def compact : Json → String
  | null => "null"
  | bool b => if b then "true" else "false"
  | int n => toString n
  | float x => floatText x
  | str s => quotedString s
  | arr items => "[" ++ ",".intercalate (compactItems items) ++ "]"
  | obj entries =>
    "\x7b" ++ ",".intercalate ((sortEntries (compactEntries entries)).map fun e =>
      quotedString e.1 ++ ":" ++ e.2) ++ "\x7d"

/-- The items of an array, each on one line. -/
def compactItems : List Json → List String
  | [] => []
  | item :: items => compact item :: compactItems items

/-- The entries of an object, each value on one line. -/
def compactEntries : List (String × Json) → List (String × String)
  | [] => []
  | (key, value) :: entries => (key, compact value) :: compactEntries entries

end

/-- Two blanks per level. -/
def margin (depth : Nat) : String := String.ofList (List.replicate (2 * depth) ' ')

/-- The lines of an array or object of which the parts are already written: each part
on a line of its own, one level further in. Without parts both brackets stand
together. -/
def enclose (opening closing : String) (depth : Nat) (parts : List String) : String :=
  if parts.isEmpty then opening ++ closing
  else
    opening ++ "\n" ++ ",\n".intercalate (parts.map (margin (depth + 1) ++ ·)) ++ "\n" ++
      margin depth ++ closing

mutual

/-- The document over several lines, from the given depth inwards. -/
def prettyFrom (depth : Nat) : Json → String
  | null => "null"
  | bool b => if b then "true" else "false"
  | int n => toString n
  | float x => floatText x
  | str s => quotedString s
  | arr items => enclose "[" "]" depth (prettyItems (depth + 1) items)
  | obj entries =>
    enclose "\x7b" "\x7d" depth ((sortEntries (prettyEntries (depth + 1) entries)).map fun e =>
      quotedString e.1 ++ ": " ++ e.2)

/-- The items of an array, each from the given depth inwards. -/
def prettyItems (depth : Nat) : List Json → List String
  | [] => []
  | item :: items => prettyFrom depth item :: prettyItems depth items

/-- The entries of an object, each value from the given depth inwards. -/
def prettyEntries (depth : Nat) : List (String × Json) → List (String × String)
  | [] => []
  | (key, value) :: entries => (key, prettyFrom depth value) :: prettyEntries depth entries

end

/-- The document over several lines. -/
def pretty (j : Json) : String := prettyFrom 0 j

end Json
end SlotTree

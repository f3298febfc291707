import SlotTree.Token.Lexeme

/-!
# The token stream of a script

The scanner goes through a script lexeme by lexeme and adds the layout that the lexemes
by themselves do not have.  Its state (`Scan`) is the text that is left with its byte
offset, the tokens so far, the columns of the blocks that are open, the depth of brackets
and whether a line has just begun.

* Inside brackets a line end counts for nothing.  Outside, it becomes a `newline` token,
  unless no token stands before it on its line, and the next line begins.
* Where a line begins its indentation is measured: a space counts one, a tab goes to the
  next multiple of eight, a form feed starts again from zero.  A line that holds only
  blanks or a comment has no indentation.
* A line that is indented further than the current block opens a block, which is allowed
  only after a colon at the end of the line before.  A line that is indented less closes
  blocks, and must then stand exactly where one of them began.
* At the end of the script the last line is closed, then every open block.

`Scan.step` takes at least one character off the text (`length_rest_lt_of_step`), and
`Scan.run` repeats it until nothing is left.
-/

namespace SlotTree

/-- The state of the scanner. -/
structure Scan where
  /-- The text that is left. -/
  rest : List Char
  /-- The number of bytes before it. -/
  offset : Nat
  /-- The tokens so far, the latest first. -/
  emitted : List Token
  /-- The columns of the open blocks, the innermost first. -/
  indents : List Nat
  /-- The number of open brackets. -/
  depth : Nat
  /-- Whether a line begins here. -/
  lineStart : Bool

namespace Scan

open Text (byteLength)

/-- The state before a text. -/
def ofText (text : List Char) : Scan := ⟨text, 0, [], [], 0, true⟩

/-- The position of the text that is left. -/
def position (file : String) (s : Scan) : Position := ⟨s.offset, file⟩

/-- The span of characters at the start of the text that is left. -/
def spanOf (file : String) (s : Scan) (chars : List Char) : Span :=
  ⟨⟨s.offset, file⟩, ⟨s.offset + byteLength chars, file⟩⟩

/-- The state after characters at the start of the text that is left. -/
def advance (s : Scan) (chars : List Char) : Scan :=
  { s with rest := s.rest.drop chars.length, offset := s.offset + byteLength chars }

/-- Adds a token that stands for the given characters, without going past them. -/
def emit (file : String) (s : Scan) (kind : TokenKind) (text : String) (chars : List Char) :
    Scan :=
  { s with emitted := ⟨kind, text, s.spanOf file chars⟩ :: s.emitted }

/-- Whether a logical line is open, that is, whether tokens stand before this point that
no line end has closed yet. -/
def lineOpen (s : Scan) : Bool :=
  match s.emitted with
  | [] => false
  | t :: _ => t.kind != .newline

/-- Whether the line before this one ended with a colon. -/
def afterColon (s : Scan) : Bool :=
  match s.emitted with
  | _ :: t :: _ => t.kind == .colon
  | _ => false

/-! ## Indentation -/

/-- The column after a blank. -/
def columnAfter (column : Nat) (c : Char) : Nat :=
  if c == ' ' then column + 1
  else if c == '\t' then (column / 8 + 1) * 8
  else 0

/-- The column of the current block. -/
def column (indents : List Nat) : Nat := indents.headD 0

/-- Closes the blocks that begin right of a column. -/
def closeBlocks (file : String) (target : Nat) (s : Scan) : List Nat → Scan
  | [] => { s with indents := [] }
  | top :: below =>
    if target < top then closeBlocks file target (s.emit file .dedent "" []) below
    else { s with indents := top :: below }

/-- Opens or closes blocks for a line that stands at the given column. -/
def indentTo (file : String) (target : Nat) (s : Scan) : Except Fault Scan :=
  if column s.indents < target then
    if s.afterColon then
      .ok { s.emit file .indent "" [] with indents := target :: s.indents }
    else .error ⟨.unexpectedIndent, s.position file⟩
  else
    let closed := closeBlocks file target s s.indents
    if column closed.indents != target then
      .error ⟨.inconsistentIndentation, s.position file⟩
    else .ok closed

/-- Begins a line: measures its indentation, unless there is nothing on it. -/
def beginLine (file : String) (s : Scan) : Except Fault Scan :=
  let blanks := s.rest.takeWhile Lexeme.isSpace
  let s := { s.advance blanks with lineStart := false }
  match s.rest with
  | [] => .ok s
  | c :: _ =>
    if Lexeme.isLineEndChar c || c == '#' then .ok s
    else indentTo file (blanks.foldl columnAfter 0) s

/-! ## One step -/

/-- The state after a line end. -/
def endLine (file : String) (s : Scan) (chars : List Char) : Scan :=
  if s.depth == 0 then
    let s := if s.lineOpen then s.emit file .newline "\n" chars else s
    { s with lineStart := true }
  else s

/-- The state after a lexeme. -/
def accept (file : String) (s : Scan) (l : Lexeme) : Scan :=
  match l.piece with
  | .trivia => s.advance l.chars
  | .lineEnd => (s.endLine file l.chars).advance l.chars
  | .token kind text =>
    { s.emit file kind text l.chars with depth := kind.depthAfter s.depth }.advance l.chars

/-- Reads the next lexeme. -/
def readLexeme (file : String) (s : Scan) : Except Fault Scan :=
  match Lexeme.next s.rest with
  | .error cause => .error ⟨cause, s.position file⟩
  | .ok l => .ok (s.accept file l)

/-- Begins a line if one begins here, and reads the next lexeme if one is left. -/
def step (file : String) (s : Scan) : Except Fault Scan :=
  match if s.lineStart then s.beginLine file else .ok s with
  | .error fault => .error fault
  | .ok s => if s.rest.isEmpty then .ok s else s.readLexeme file

/-! ## A step takes something off the text -/

@[simp] theorem rest_advance (s : Scan) (chars : List Char) :
    (s.advance chars).rest = s.rest.drop chars.length := rfl

@[simp] theorem rest_emit (file : String) (s : Scan) (kind : TokenKind) (text : String)
    (chars : List Char) : (s.emit file kind text chars).rest = s.rest := rfl

@[simp] theorem rest_closeBlocks (file : String) (target : Nat) (s : Scan) (indents : List Nat) :
    (closeBlocks file target s indents).rest = s.rest := by
  induction indents generalizing s with
  | nil => rfl
  | cons top below ih =>
    unfold closeBlocks
    split
    · rw [ih]; rfl
    · rfl

theorem rest_of_indentTo {file : String} {target : Nat} {s s' : Scan}
    (h : s.indentTo file target = .ok s') : s'.rest = s.rest := by
  unfold indentTo at h
  split at h
  · split at h
    · cases h; rfl
    · cases h
  · dsimp only at h
    split at h
    · cases h
    · cases h; simp

theorem rest_of_beginLine {file : String} {s s' : Scan} (h : s.beginLine file = .ok s') :
    s'.rest = s.rest.drop (s.rest.takeWhile Lexeme.isSpace).length := by
  unfold beginLine at h
  dsimp only at h
  split at h
  · cases h; rfl
  · split at h
    · cases h; rfl
    · rw [rest_of_indentTo h]; rfl

@[simp] theorem rest_endLine (file : String) (s : Scan) (chars : List Char) :
    (s.endLine file chars).rest = s.rest := by
  unfold endLine
  split
  · dsimp only
    split <;> rfl
  · rfl

@[simp] theorem rest_accept (file : String) (s : Scan) (l : Lexeme) :
    (s.accept file l).rest = s.rest.drop l.chars.length := by
  unfold accept
  split <;> simp

theorem length_rest_lt_of_readLexeme {file : String} {s s' : Scan} (hne : s.rest ≠ [])
    (h : s.readLexeme file = .ok s') : s'.rest.length < s.rest.length := by
  unfold readLexeme at h
  split at h
  · cases h
  · next l hl =>
    cases h
    have h1 : 0 < l.chars.length := List.length_pos_iff.2 (Lexeme.chars_ne_nil_of_next hl)
    have h2 : 0 < s.rest.length := List.length_pos_iff.2 hne
    simp only [rest_accept, List.length_drop]
    omega

/-- **A step takes at least one character off the text.** -/
theorem length_rest_lt_of_step {file : String} {s s' : Scan} (hne : s.rest ≠ [])
    (h : s.step file = .ok s') : s'.rest.length < s.rest.length := by
  unfold step at h
  split at h
  · cases h
  · next mid hmid =>
    -- beginning a line drops blanks, possibly none
    have hle : mid.rest.length ≤ s.rest.length ∧ (mid.rest = [] → mid.rest.length < s.rest.length) := by
      have hpos : 0 < s.rest.length := List.length_pos_iff.2 hne
      split at hmid
      · rw [rest_of_beginLine hmid]
        refine ⟨by simp, fun he => ?_⟩
        rw [he]
        simpa using hpos
      · cases hmid
        exact ⟨Nat.le_refl _, fun he => absurd he hne⟩
    split at h
    · next hempty =>
      cases h
      exact hle.2 (List.isEmpty_iff.1 hempty)
    · next hfull =>
      have hne' : mid.rest ≠ [] := fun he => hfull (by simp [he])
      exact Nat.lt_of_lt_of_le (length_rest_lt_of_readLexeme hne' h) hle.1

/-! ## The whole script -/

/-- Scans until nothing is left. -/
def run (file : String) (s : Scan) : Except Fault Scan :=
  if _hne : s.rest = [] then .ok s
  else
    match _h : s.step file with
    | .error fault => .error fault
    | .ok next => run file next
termination_by s.rest.length
decreasing_by exact length_rest_lt_of_step _hne _h

/-- Closes the last line and every open block. -/
def finish (file : String) (s : Scan) : Scan :=
  let s := if s.lineOpen then s.emit file .newline "" [] else s
  let s := s.indents.foldl (fun s _ => s.emit file .dedent "" []) s
  s.emit file .eof "EOF" []

end Scan

/-- The tokens of a script, or the first fault in it. -/
def tokenize (source : String) (file : String) : Except Fault (List Token) :=
  (Scan.run file (.ofText source.toList)).map fun s => (s.finish file).emitted.reverse

end SlotTree

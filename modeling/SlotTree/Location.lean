/-!
# Places in a source file

A position is a byte offset together with the name of the file it counts in; a span is
a pair of positions.  Trees are also built outside of any source, by an editor, and
their nodes carry the *detached* position: offset zero in a file of the reserved name
`<null>`.  Whether a position is detached is decided by that name alone.
-/

namespace SlotTree

/-- A byte offset into a file, with the name of the file. -/
structure Position where
  offset : Nat
  file : String
  deriving DecidableEq, Repr, Inhabited

namespace Position

/-- The position of what was built outside of any source. -/
def detached : Position := ⟨0, "<null>"⟩

/-- Whether the position belongs to no source. -/
def isDetached (p : Position) : Bool := p.file == "<null>"

@[simp] theorem isDetached_detached : detached.isDetached = true := rfl

end Position

/-- A stretch of source, from its first byte to the byte after its last. -/
structure Span where
  start : Position
  stop : Position
  deriving DecidableEq, Repr, Inhabited

namespace Span

/-- The span of what was built outside of any source. -/
def detached : Span := ⟨.detached, .detached⟩

end Span
end SlotTree

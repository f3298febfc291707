import SlotTree.Tree.Stmt

/-!
# Editing blocks

The statements of a block are addressed by index.  An index that is out of range is a
fault, and then the block stays as it is; only looking at a statement, or at its
neighbour, answers with nothing instead.

Blocks nest.  A statement further down is addressed by the indexes on the way to it,
and `Stmt.editAt` carries an edit there and the result back.
-/

namespace SlotTree
namespace Block

/-- A block without statements. -/
def ofSpan (span : Span) : Block := ⟨[], span⟩

/-- The fault of an index that the block does not have. -/
def outOfRange (b : Block) (index : Nat) : Fault :=
  .detached (.indexOutOfRange index b.body.length)

/-- The statement at an index. -/
def get? (b : Block) (index : Nat) : Option Stmt := b.body[index]?

/-- The statement after an index. -/
def next? (b : Block) (index : Nat) : Option Stmt := b.body[index + 1]?

/-- The statement before an index. -/
def previous? (b : Block) : (index : Nat) → Option Stmt
  | 0 => none
  | index + 1 => b.body[index]?

/-- Adds a statement at the end. -/
def append (b : Block) (s : Stmt) : Block := { b with body := b.body ++ [s] }

/-- Inserts a statement in front of an index; the index after the last one appends. -/
def insert (b : Block) (index : Nat) (s : Stmt) : Edited Block Unit :=
  if b.body.length < index then (.error (b.outOfRange index), b)
  else (.ok (), { b with body := b.body.take index ++ s :: b.body.drop index })

/-- Puts statements in place of the one at an index and answers that one. -/
def replace (b : Block) (index : Nat) (stmts : List Stmt) : Edited Block Stmt :=
  match b.body[index]? with
  | none => (.error (b.outOfRange index), b)
  | some old =>
    (.ok old, { b with body := b.body.take index ++ stmts ++ b.body.drop (index + 1) })

/-- Overwrites the statement at an index and answers the old one. -/
def set (b : Block) (index : Nat) (s : Stmt) : Edited Block Stmt := b.replace index [s]

/-- Takes out the statement at an index. -/
def remove (b : Block) (index : Nat) : Edited Block Stmt := b.replace index []

end Block

namespace Stmt

/-- Edits the statement that a path of indexes leads to, if it leads to one. -/
def editAt {α : Type} (edit : Stmt → α × Stmt) : (path : List Nat) → Stmt → Option (α × Stmt)
  | [], s => some (edit s)
  | index :: path, block b =>
    match b.body[index]? with
    | none => none
    | some child =>
      (editAt edit path child).map fun outcome =>
        (outcome.1, block { b with body := b.body.set index outcome.2 })
  | _ :: _, _ => none

end Stmt
end SlotTree

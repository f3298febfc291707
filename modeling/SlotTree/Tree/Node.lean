import SlotTree.Tree.Block

/-!
# Walking the tree

A node is a statement or an expression.  Below a node stand first the statements of a
block and then the expressions in its slots, field by field; empty slots, raw values and
constrained slots that are no field of their own are passed over.

The two walks are defined by recursion along `children` and by nothing else: a node,
then the walks of its children (`preOrder`), or the walks of its children, then the node
(`postOrder`).  That a child is smaller than its parent (`sizeOf_lt_of_mem_children`) is
what makes them total.
-/

namespace SlotTree

/-- A statement or an expression. -/
inductive Node where
  | stmt (stmt : Stmt)
  | expr (expr : Expr)

namespace Node

/-- The name of the node. -/
def name : Node → String
  | stmt s => s.kindName
  | expr e => e.nodeName

/-- The stretch of source of the node. -/
def span : Node → Span
  | stmt s => s.span
  | expr e => e.span

/-- The fields of the node. -/
def fields : Node → Fields
  | stmt s => s.fields
  | expr e => e.fields

/-- The statements directly below the node. -/
def body : Node → List Stmt
  | stmt (.block b) => b.body
  | _ => []

/-- The nodes directly below: the statements of a block, then the expressions in the
slots, field by field. -/
def children (n : Node) : List Node :=
  n.body.map stmt ++ (n.fields.flatMap fun entry => entry.2.exprs).map expr

/-! ## Children are smaller -/

theorem sizeOf_expr_lt_slot {s : Slot} {e : Expr} (h : s.expr? = some e) :
    sizeOf e < sizeOf s := by
  obtain ⟨t, c, k⟩ := s
  cases c <;> simp_all [Slot.expr?]
  omega

theorem sizeOf_expr_lt_field {f : Field} {e : Expr} (h : e ∈ f.exprs) : sizeOf e < sizeOf f := by
  cases f with
  | slot s =>
    simp only [Field.exprs, Field.slots, List.filterMap_cons, List.filterMap_nil] at h
    split at h
    · simp at h
    · next he =>
      simp only [List.mem_singleton] at h
      have := sizeOf_expr_lt_slot he
      subst h
      simp only [Field.slot.sizeOf_spec]
      omega
  | variadic v =>
    simp only [Field.exprs, Field.slots, List.mem_filterMap] at h
    obtain ⟨s, hs, he⟩ := h
    have h1 := sizeOf_expr_lt_slot he
    have h2 := List.sizeOf_lt_of_mem hs
    obtain ⟨t, ss⟩ := v
    simp only [Field.variadic.sizeOf_spec, Variadic.mk.sizeOf_spec]
    simp only at h2
    omega

/-- The slots of an expression's fields are parts of the expression. -/
theorem sizeOf_field_le_expr {e : Expr} {entry : String × Field} (h : entry ∈ e.fields) :
    sizeOf entry.2 ≤ sizeOf e := by
  cases e <;> simp only [Expr.fields, List.mem_cons, List.not_mem_nil, or_false] at h
  case literal =>
    subst h
    simp only [Expr.literal.sizeOf_spec, Field.slot.sizeOf_spec]
    omega
  case load =>
    subst h
    simp only [Expr.load.sizeOf_spec, Field.slot.sizeOf_spec]
    omega
  case keyword =>
    rcases h with rfl | rfl <;>
      (simp only [Expr.keyword.sizeOf_spec, Field.slot.sizeOf_spec]; omega)
  case call =>
    rcases h with rfl | rfl | rfl <;>
      (simp only [Expr.call.sizeOf_spec, Field.slot.sizeOf_spec, Field.variadic.sizeOf_spec]; omega)
  case print =>
    rcases h with rfl | rfl | rfl | rfl | rfl <;>
      (simp only [Expr.print.sizeOf_spec, Field.slot.sizeOf_spec, Field.variadic.sizeOf_spec]; omega)

/-- The slots of a statement's fields are parts of the statement. -/
theorem sizeOf_field_le_stmt {s : Stmt} {entry : String × Field} (h : entry ∈ s.fields) :
    sizeOf entry.2 ≤ sizeOf s := by
  cases s with
  | block b => simp [Stmt.fields] at h
  | expression value span =>
    simp only [Stmt.fields, List.mem_singleton] at h
    subst h
    simp only [Stmt.expression.sizeOf_spec, Field.slot.sizeOf_spec]
    omega
  | declaration id type span =>
    simp only [Stmt.fields, List.mem_cons, List.not_mem_nil, or_false] at h
    rcases h with rfl | rfl <;>
      (simp only [Stmt.declaration.sizeOf_spec, Field.slot.sizeOf_spec]; omega)
  | definition id type span =>
    obtain ⟨t, c, k⟩ := type
    simp only [Stmt.fields, List.mem_cons] at h
    rcases h with rfl | rfl | h
    · simp only [Stmt.definition.sizeOf_spec, Field.slot.sizeOf_spec]; omega
    · simp only [Stmt.definition.sizeOf_spec, Field.slot.sizeOf_spec]; omega
    · cases k with
      | none => simp at h
      | some value =>
        simp only [List.mem_singleton] at h
        subst h
        simp only [Stmt.definition.sizeOf_spec, Field.slot.sizeOf_spec, Slot.mk.sizeOf_spec,
          Option.some.sizeOf_spec]
        omega

/-- **A child is smaller than its parent.** -/
theorem sizeOf_lt_of_mem_children {n c : Node} (h : c ∈ n.children) : sizeOf c < sizeOf n := by
  simp only [children, List.mem_append, List.mem_map, List.mem_flatMap] at h
  rcases h with ⟨s, hs, rfl⟩ | ⟨e, ⟨entry, hentry, he⟩, rfl⟩
  · cases n with
    | expr e => simp [body] at hs
    | stmt p =>
      cases p <;> simp only [body, List.not_mem_nil] at hs
      next b =>
        have := List.sizeOf_lt_of_mem hs
        obtain ⟨body, span⟩ := b
        simp only [stmt.sizeOf_spec, Stmt.block.sizeOf_spec, Block.mk.sizeOf_spec]
        simp only at this
        omega
  · have h1 := sizeOf_expr_lt_field he
    cases n with
    | expr p =>
      have h2 := sizeOf_field_le_expr hentry
      simp only [expr.sizeOf_spec]
      omega
    | stmt p =>
      have h2 := sizeOf_field_le_stmt hentry
      simp only [expr.sizeOf_spec, stmt.sizeOf_spec]
      omega

/-! ## The walks -/

/-- The node, then everything below it, in the order of reading. -/
def preOrder (n : Node) : List Node :=
  n :: n.children.attach.flatMap fun c => preOrder c.1
termination_by sizeOf n
decreasing_by exact sizeOf_lt_of_mem_children c.2

/-- Everything below the node, each after what is below it, then the node. -/
def postOrder (n : Node) : List Node :=
  (n.children.attach.flatMap fun c => postOrder c.1) ++ [n]
termination_by sizeOf n
decreasing_by exact sizeOf_lt_of_mem_children c.2

end Node
end SlotTree

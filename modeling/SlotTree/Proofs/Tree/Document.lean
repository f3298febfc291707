import SlotTree.Proofs.Tree.Paths
import SlotTree.Tree.Dump

/-!
# The document of a tree

The dump of a tree recurses over the nodes and their fields, and the walks recurse over the list of
children.  This module shows that they see the same tree.

An object of a document stands for a node if its keys are `node` and `fields` (`Json.isNode`).
`Json.nodeObjects` lists all such objects of a document wherever they stand, and `Json.inside`
those inside an object that have no other such object around them, that is, those directly below.
Neither knows anything of trees.

A dump puts the fields of a node one by one into its object and adds at most one entry that is no
field, the statements of a block or the name of a type (`Node.dump_eq`).  So directly below the
object of a node stand the objects of its children, in order (`Node.inside_dump`), and from there
`Node.walks_and_dump_agree` is an induction over the tree.
-/

namespace SlotTree

/-! ## Objects of nodes -/

namespace Json

/-- Whether the document is the object of a node. -/
def isNode : Json → Bool
  | .obj entries => entries.map Prod.fst == ["node", "fields"]
  | _ => false

mutual

/-- The objects of nodes in a document, each in front of those inside it. -/
def nodeObjects : Json → List Json
  | .arr items => nodeObjectsOfItems items
  | .obj entries =>
    (if isNode (.obj entries) then [.obj entries] else []) ++ nodeObjectsOfEntries entries
  | _ => []

/-- The objects of nodes in the items of an array. -/
def nodeObjectsOfItems : List Json → List Json
  | [] => []
  | item :: items => nodeObjects item ++ nodeObjectsOfItems items

/-- The objects of nodes in the entries of an object. -/
def nodeObjectsOfEntries : List (String × Json) → List Json
  | [] => []
  | (_, value) :: entries => nodeObjects value ++ nodeObjectsOfEntries entries

end

mutual

/-- The objects of nodes in a document that no other one is around. -/
def outermost : Json → List Json
  | .arr items => outermostOfItems items
  | .obj entries =>
    if isNode (.obj entries) then [.obj entries] else outermostOfEntries entries
  | _ => []

/-- The outermost objects of nodes in the items of an array. -/
def outermostOfItems : List Json → List Json
  | [] => []
  | item :: items => outermost item ++ outermostOfItems items

/-- The outermost objects of nodes in the entries of an object. -/
def outermostOfEntries : List (String × Json) → List Json
  | [] => []
  | (_, value) :: entries => outermost value ++ outermostOfEntries entries

end

/-- The objects of nodes directly below an object. -/
def inside : Json → List Json
  | .obj entries => outermostOfEntries entries
  | _ => []

/-- The object of a node that a path leads to, one object inside the other. -/
def nodeAt? : Json → List Nat → Option Json
  | j, [] => if j.isNode then some j else none
  | j, i :: path => j.inside[i]?.bind fun below => below.nodeAt? path

theorem outermostOfItems_eq (items : List Json) :
    outermostOfItems items = items.flatMap outermost := by
  induction items with
  | nil => rfl
  | cons item items ih => rw [outermostOfItems, ih, List.flatMap_cons]

theorem outermostOfEntries_eq (entries : List (String × Json)) :
    outermostOfEntries entries = entries.flatMap fun entry => outermost entry.2 := by
  induction entries with
  | nil => rfl
  | cons entry entries ih => rw [outermostOfEntries, ih, List.flatMap_cons]

theorem outermost_of_isNode {j : Json} (h : j.isNode = true) : outermost j = [j] := by
  cases j with
  | obj entries => rw [outermost, if_pos h]
  | _ => cases h

mutual

/-- Every object of a node is an outermost one or stands inside one. -/
theorem nodeObjects_eq : (j : Json) → nodeObjects j = (outermost j).flatMap nodeObjects
  | .arr items => by rw [nodeObjects, outermost, nodeObjectsOfItems_eq items]
  | .obj entries => by
    rw [outermost]
    split
    · rw [List.flatMap_singleton]
    · next hnode => rw [nodeObjects, if_neg hnode, List.nil_append, nodeObjectsOfEntries_eq entries]
  | .null | .bool _ | .int _ | .float _ | .str _ => rfl

theorem nodeObjectsOfItems_eq : (items : List Json) →
    nodeObjectsOfItems items = (outermostOfItems items).flatMap nodeObjects
  | [] => rfl
  | item :: items => by
    rw [nodeObjectsOfItems, outermostOfItems, List.flatMap_append, ← nodeObjects_eq item,
      nodeObjectsOfItems_eq items]

theorem nodeObjectsOfEntries_eq : (entries : List (String × Json)) →
    nodeObjectsOfEntries entries = (outermostOfEntries entries).flatMap nodeObjects
  | [] => rfl
  | (_, value) :: entries => by
    rw [nodeObjectsOfEntries, outermostOfEntries, List.flatMap_append, ← nodeObjects_eq value,
      nodeObjectsOfEntries_eq entries]

end

/-- In the object of a node stand the object itself and what is in the objects directly below. -/
theorem nodeObjects_of_isNode {j : Json} (h : j.isNode = true) :
    nodeObjects j = j :: (inside j).flatMap nodeObjects := by
  cases j with
  | obj entries =>
    rw [nodeObjects, if_pos h, nodeObjectsOfEntries_eq, inside, List.singleton_append]
  | _ => cases h

end Json

open Json (inside isNode nodeObjects outermost)

@[simp] theorem isNode_nodeObject (kind : String) (entries : List (String × Json)) :
    (nodeObject kind entries).isNode = true := by
  rw [nodeObject, isNode]
  rfl

/-- Directly below the object of a node stands what is in its fields, if these are not named like
the object of a node itself. -/
theorem inside_nodeObject {kind : String} {entries : List (String × Json)}
    (h : entries.map Prod.fst ≠ ["node", "fields"]) :
    inside (nodeObject kind entries) = entries.flatMap fun entry => outermost entry.2 := by
  have hfields : isNode (.obj entries) = false := by
    rw [isNode, beq_eq_false_iff_ne]
    exact h
  have hobject : outermost (.obj entries) = entries.flatMap fun entry => outermost entry.2 := by
    rw [outermost, hfields, ← Json.outermostOfEntries_eq]
    rfl
  rw [nodeObject, inside, Json.outermostOfEntries_eq, List.flatMap_cons, List.flatMap_singleton,
    hobject]
  rfl

/-! ## The entries of a node -/

/-- A field as it is dumped. -/
def Field.dump : Field → Json
  | .slot s => s.dump
  | .variadic v => .arr (v.slots.map Slot.dump)

theorem dumpSlots_eq_map (ss : List Slot) : dumpSlots ss = ss.map Slot.dump := by
  induction ss with
  | nil => rfl
  | cons s ss ih => rw [dumpSlots, ih, List.map_cons]

theorem dumpStmts_eq_map (ss : List Stmt) : dumpStmts ss = ss.map Stmt.dump := by
  induction ss with
  | nil => rfl
  | cons s ss ih => rw [dumpStmts, ih, List.map_cons]

namespace Node

/-- What the object of a node holds beside its fields. -/
def ownEntries : Node → List (String × Json)
  | stmt (.block b) => [("body", .arr (b.body.map Stmt.dump))]
  | expr (.type t _) => [("type", .str t.name)]
  | _ => []

/-- What the object of a node holds under `fields`. -/
def entries (n : Node) : List (String × Json) :=
  n.fields.map (fun entry => (entry.1, entry.2.dump)) ++ n.ownEntries

/-- **A node is dumped field by field.** -/
theorem dump_eq (n : Node) : ∃ kind, n.dump = nodeObject kind n.entries := by
  match n with
  | stmt (.block ⟨body, span⟩) =>
    exact ⟨"CodeBlock", by rw [dump, Stmt.dump, dumpStmts_eq_map]; rfl⟩
  | stmt (.expression value span) => exact ⟨"ExpressionStmt", by rw [dump, Stmt.dump]; rfl⟩
  | stmt (.declaration id type span) =>
    exact ⟨"VariableDeclaration", by rw [dump, Stmt.dump]; rfl⟩
  | stmt (.definition id type span) =>
    refine ⟨"VariableDefinition", ?_⟩
    rw [dump, Stmt.dump, entries, fields, Stmt.fields]
    cases type.constraint <;> rfl
  | expr (.literal kind value span) => exact ⟨kind.nodeName, by rw [dump, Expr.dump]; rfl⟩
  | expr (.load id span) => exact ⟨"VariableLoader", by rw [dump, Expr.dump]; rfl⟩
  | expr (.keyword arg value span) => exact ⟨"Keyword", by rw [dump, Expr.dump]; rfl⟩
  | expr (.type t span) => exact ⟨"Type", by rw [dump, Expr.dump]; rfl⟩
  | expr (.call func ⟨t, args⟩ ⟨u, keywords⟩ binder span) =>
    exact ⟨"Call", by rw [dump, Expr.dump, dumpSlots_eq_map, dumpSlots_eq_map]; rfl⟩
  | expr (.print ⟨t, objects⟩ sep ending file flush binder span) =>
    exact ⟨"print", by rw [dump, Expr.dump, dumpSlots_eq_map]; rfl⟩

@[simp] theorem isNode_dump (n : Node) : n.dump.isNode = true := by
  obtain ⟨kind, hdump⟩ := n.dump_eq
  rw [hdump, isNode_nodeObject]

/-- No node has fields that are named like the object of a node. -/
theorem entries_keys_ne (n : Node) : n.entries.map Prod.fst ≠ ["node", "fields"] := by
  cases n with
  | stmt s => cases s <;> simp [entries, fields, Stmt.fields, ownEntries]
  | expr e => cases e <;> simp [entries, fields, Expr.fields, ownEntries]

/-! ## What stands directly below -/

theorem outermost_slot_dump (s : Slot) : outermost s.dump = s.expr?.toList.map Expr.dump := by
  obtain ⟨type, content, constraint⟩ := s
  cases content with
  | empty => rfl
  | literal v => cases v <;> rfl
  | expr e => exact Json.outermost_of_isNode (isNode_dump (.expr e))

/-- In a dumped field stand the objects of its expressions. -/
theorem outermost_field_dump (f : Field) : outermost f.dump = f.exprs.map Expr.dump := by
  cases f with
  | slot s =>
    rw [Field.dump, outermost_slot_dump, Field.exprs, Field.slots, List.filterMap_cons]
    cases s.expr? <;> rfl
  | variadic v =>
    rw [Field.dump, outermost, Json.outermostOfItems_eq, Field.exprs, Field.slots]
    induction v.slots with
    | nil => rfl
    | cons s ss ih =>
      rw [List.map_cons, List.flatMap_cons, ih, outermost_slot_dump, List.filterMap_cons]
      cases s.expr? <;> rfl

/-- In the entry that is no field stand the objects of the statements of a block. -/
theorem outermost_ownEntries (n : Node) :
    (n.ownEntries.flatMap fun entry => outermost entry.2) = n.body.map Stmt.dump := by
  cases n with
  | expr e => cases e <;> rfl
  | stmt s =>
    cases s with
    | block b =>
      rw [ownEntries, List.flatMap_singleton, outermost, Json.outermostOfItems_eq, body]
      refine (List.flatMap_map ..).trans ?_
      rw [← List.flatMap_singleton' (b.body.map Stmt.dump), List.flatMap_map]
      exact List.flatMap_congr fun s _ => Json.outermost_of_isNode (isNode_dump (.stmt s))
    | _ => rfl

/-- A block has no fields and nothing else has statements, so it is no matter which come first. -/
theorem body_eq_nil_or_fields_eq_nil (n : Node) : n.body = [] ∨ n.fields = [] := by
  cases n with
  | expr e => exact Or.inl rfl
  | stmt s =>
    cases s with
    | block b => exact Or.inr rfl
    | _ => exact Or.inl rfl

/-- **Directly below the object of a node stand the objects of its children**, in order. -/
theorem inside_dump (n : Node) : inside n.dump = n.children.map dump := by
  obtain ⟨kind, hdump⟩ := n.dump_eq
  have hfields : ((n.fields.map fun entry => (entry.1, entry.2.dump)).flatMap fun entry =>
      outermost entry.2) = (n.fields.flatMap fun entry => entry.2.exprs).map Expr.dump := by
    rw [List.flatMap_map, List.map_flatMap]
    exact List.flatMap_congr fun entry _ => outermost_field_dump entry.2
  have hown := n.outermost_ownEntries
  rw [hdump, inside_nodeObject n.entries_keys_ne, entries, List.flatMap_append, hfields, hown,
    children, List.map_append, List.map_map, List.map_map]
  rcases n.body_eq_nil_or_fields_eq_nil with hbody | hfields
  · simp [hbody, Function.comp_def, dump]
  · simp [hfields, Function.comp_def, dump]

/-! ## The same tree -/

/-- The objects of nodes in the dump of a tree are the dumps of its nodes. -/
theorem nodeObjects_dump (n : Node) : nodeObjects n.dump = n.preOrder.map dump := by
  induction n using childInduction with
  | step n ih =>
    rw [Json.nodeObjects_of_isNode n.isNode_dump, inside_dump, preOrder_eq, List.map_cons,
      List.flatMap_map, List.map_flatMap]
    congr 1
    exact List.flatMap_congr ih

/-- A path leads to the same place in a tree and in its dump. -/
theorem nodeAt?_dump (n : Node) (path : List Nat) :
    n.dump.nodeAt? path = (n.at? path).map dump := by
  induction path generalizing n with
  | nil => rw [Json.nodeAt?, isNode_dump, at?_nil]; rfl
  | cons i path ih =>
    rw [Json.nodeAt?, inside_dump, at?_cons, List.getElem?_map]
    cases n.children[i]? with
    | none => rfl
    | some c => exact ih c

/-- **The walks and the dump see the same tree.**  There is a list of all paths of the tree in
lexicographic order, and `preOrder` is the list of the nodes that they lead to.  `postOrder` lists
the nodes of the same paths in another order, in which nothing comes before anything below it and
the children of a node keep their order.  In the dump, one object inside the other, every path
leads to the dump of the node that it leads to in the tree, and to nothing where it leads to no
node; and there are no other objects of nodes in the dump than those of the paths, one for each. -/
theorem walks_and_dump_agree (n : Node) :
    ∃ pre post : List (List Nat),
      (∀ path, path ∈ pre ↔ (n.at? path).isSome) ∧ pre.Pairwise (List.Lex (· < ·)) ∧
      pre.map n.at? = n.preOrder.map some ∧
      post.Perm pre ∧ post.Pairwise MayPrecede ∧
      post.map n.at? = n.postOrder.map some ∧
      (∀ path, n.dump.nodeAt? path = (n.at? path).map dump) ∧
      (nodeObjects n.dump).map some = pre.map n.dump.nodeAt? := by
  refine ⟨n.prePaths, n.postPaths, fun path => mem_prePaths_iff, n.pairwise_prePaths,
    n.map_at?_prePaths, n.perm_postPaths, n.pairwise_postPaths, n.map_at?_postPaths,
    n.nodeAt?_dump, ?_⟩
  have hobjects : n.prePaths.map n.dump.nodeAt? = (n.prePaths.map n.at?).map (Option.map dump) := by
    rw [List.map_map]
    exact List.map_congr_left fun path _ => n.nodeAt?_dump path
  rw [hobjects, n.map_at?_prePaths, nodeObjects_dump, List.map_map, List.map_map]
  rfl

end Node
end SlotTree

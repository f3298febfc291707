import Mathlib.Data.List.Basic
import SlotTree.Tree.Node

/-!
# The walks by paths

Two nodes of a tree may look the same, so a walk is not described by the nodes that it meets but
by where they stand.  A node is found by a *path*, the list of child indexes on the way down to
it, and the root has the empty path (`at?`).

Beside the two walks stand their lists of paths (`prePaths`, `postPaths`).  Both put the index of
a child in front of every path below it and differ only in where the root comes (`branches`).
What is true of the paths below each child carries over to the paths of all children by one lemma
for each property: which paths there are (`mem_branches`), in what order
(`pairwise_branches`), and which nodes they lead to (`map_at?_branches`).
-/

namespace SlotTree
namespace Node

/-- What holds of a node whenever it holds of its children holds of every node. -/
theorem childInduction {P : Node → Prop} (step : ∀ n, (∀ c ∈ n.children, P c) → P n) (n : Node) :
    P n :=
  step n fun c hc =>
    have := sizeOf_lt_of_mem_children hc
    childInduction step c
termination_by sizeOf n

theorem preOrder_eq (n : Node) : n.preOrder = n :: n.children.flatMap preOrder := by
  rw [preOrder, List.flatMap_subtype (g := preOrder) (by simp), List.unattach_attach]

theorem postOrder_eq (n : Node) : n.postOrder = n.children.flatMap postOrder ++ [n] := by
  rw [postOrder, List.flatMap_subtype (g := postOrder) (by simp), List.unattach_attach]

/-! ## Paths -/

/-- The node that a path of child indexes leads to. -/
def at? : Node → List Nat → Option Node
  | n, [] => some n
  | n, i :: path => n.children[i]?.bind fun c => c.at? path

@[simp] theorem at?_nil (n : Node) : n.at? [] = some n := rfl

theorem at?_cons (n : Node) (i : Nat) (path : List Nat) :
    n.at? (i :: path) = n.children[i]?.bind fun c => c.at? path := rfl

/-- The paths through children, from the paths below each of them.  The first child has the given
index. -/
def branches : Nat → List (List (List Nat)) → List (List Nat)
  | _, [] => []
  | i, below :: rest => below.map (i :: ·) ++ branches (i + 1) rest

theorem mem_branches {i : Nat} {below : List (List (List Nat))} {path : List Nat} :
    path ∈ branches i below ↔
      ∃ j paths rest, below[j]? = some paths ∧ rest ∈ paths ∧ path = (i + j) :: rest := by
  induction below generalizing i with
  | nil => simp [branches]
  | cons first below ih =>
    rw [branches, List.mem_append, List.mem_map, ih]
    constructor
    · rintro (⟨rest, hrest, rfl⟩ | ⟨j, paths, rest, hj, hrest, rfl⟩)
      · exact ⟨0, first, rest, rfl, hrest, rfl⟩
      · exact ⟨j + 1, paths, rest, hj, hrest, by rw [Nat.add_right_comm, Nat.add_assoc]⟩
    · rintro ⟨j, paths, rest, hj, hrest, rfl⟩
      cases j with
      | zero =>
        obtain rfl := Option.some.inj hj
        exact Or.inl ⟨rest, hrest, rfl⟩
      | succ j =>
        exact Or.inr ⟨j, paths, rest, hj, hrest, by rw [Nat.add_right_comm, Nat.add_assoc]⟩

/-- An order in which the paths below every child stand is the order of the paths through all of
them, if it does not mind a common first index and puts smaller first indexes first. -/
theorem pairwise_branches {R : List Nat → List Nat → Prop}
    (hsame : ∀ i p q, R p q → R (i :: p) (i :: q))
    (hsmaller : ∀ i j p q, i < j → R (i :: p) (j :: q)) {below : List (List (List Nat))}
    (h : ∀ paths ∈ below, paths.Pairwise R) (i : Nat) : (branches i below).Pairwise R := by
  induction below generalizing i with
  | nil => exact .nil
  | cons first below ih =>
    rw [branches, List.pairwise_append, List.pairwise_map]
    refine ⟨(h first List.mem_cons_self).imp fun hpq => hsame i _ _ hpq,
      ih (fun paths hpaths => h paths (List.mem_cons_of_mem _ hpaths)) (i + 1), ?_⟩
    intro p hp q hq
    obtain ⟨p, -, rfl⟩ := List.mem_map.mp hp
    obtain ⟨j, -, rest, -, -, rfl⟩ := mem_branches.mp hq
    exact hsmaller i _ p rest (by omega)

theorem perm_branches {α : Type} {f g : α → List (List Nat)} {as : List α}
    (h : ∀ a ∈ as, (f a).Perm (g a)) (i : Nat) :
    (branches i (as.map f)).Perm (branches i (as.map g)) := by
  induction as generalizing i with
  | nil => exact .refl _
  | cons a as ih =>
    exact ((h a List.mem_cons_self).map _).append
      (ih (fun b hb => h b (List.mem_cons_of_mem _ hb)) (i + 1))

/-- The paths through children lead to where the paths below them lead from each of them. -/
theorem map_at?_branches {n : Node} {f : Node → List (List Nat)} {i : Nat} {cs : List Node}
    (h : n.children.drop i = cs) :
    (branches i (cs.map f)).map n.at? = cs.flatMap fun c => (f c).map c.at? := by
  induction cs generalizing i with
  | nil => rfl
  | cons c cs ih =>
    have hhead : n.children[i]? = some c := by
      rw [← List.head?_drop, h, List.head?_cons]
    have htail : n.children.drop (i + 1) = cs := by
      rw [← List.tail_drop, h, List.tail_cons]
    rw [List.map_cons, branches, List.map_append, ih htail, List.flatMap_cons, List.map_map]
    congr 1
    refine List.map_congr_left fun path _ => ?_
    rw [Function.comp_apply, at?_cons, hhead, Option.bind_some]

/-! ## The paths of the walks -/

/-- The paths in the order in which `preOrder` meets their nodes. -/
def prePaths (n : Node) : List (List Nat) :=
  [] :: branches 0 (n.children.attach.map fun c => prePaths c.1)
termination_by sizeOf n
decreasing_by exact sizeOf_lt_of_mem_children c.2

/-- The paths in the order in which `postOrder` meets their nodes. -/
def postPaths (n : Node) : List (List Nat) :=
  branches 0 (n.children.attach.map fun c => postPaths c.1) ++ [[]]
termination_by sizeOf n
decreasing_by exact sizeOf_lt_of_mem_children c.2

theorem prePaths_eq (n : Node) : n.prePaths = [] :: branches 0 (n.children.map prePaths) := by
  rw [prePaths, List.map_subtype (g := prePaths) (by simp), List.unattach_attach]

theorem postPaths_eq (n : Node) : n.postPaths = branches 0 (n.children.map postPaths) ++ [[]] := by
  rw [postPaths, List.map_subtype (g := postPaths) (by simp), List.unattach_attach]

/-- The paths are those that lead to a node. -/
theorem mem_prePaths_iff {n : Node} {path : List Nat} :
    path ∈ n.prePaths ↔ (n.at? path).isSome := by
  induction path generalizing n with
  | nil => simp [prePaths_eq]
  | cons i path ih =>
    have hthrough : i :: path ∈ n.prePaths ↔
        ∃ c, n.children[i]? = some c ∧ path ∈ c.prePaths := by
      rw [prePaths_eq, List.mem_cons, mem_branches]
      constructor
      · rintro (hnil | ⟨j, paths, rest, hpaths, hrest, hpath⟩)
        · cases hnil
        · obtain ⟨hj, rfl⟩ := List.cons.inj hpath
          obtain ⟨c, hc, rfl⟩ :=
            Option.map_eq_some_iff.mp ((List.getElem?_map ..).symm.trans hpaths)
          exact ⟨c, by rwa [hj, Nat.zero_add], hrest⟩
      · rintro ⟨c, hc, hpath⟩
        exact Or.inr ⟨i, c.prePaths, path, by rw [List.getElem?_map, hc, Option.map_some], hpath,
          by rw [Nat.zero_add]⟩
    rw [hthrough, at?_cons]
    cases hchild : n.children[i]? with
    | none => simp
    | some c => simp [ih]

theorem perm_postPaths (n : Node) : n.postPaths.Perm n.prePaths := by
  induction n using childInduction with
  | step n ih =>
    rw [prePaths_eq, postPaths_eq]
    exact (List.perm_append_singleton _ _).trans ((perm_branches ih 0).cons [])

theorem map_at?_prePaths (n : Node) : n.prePaths.map n.at? = n.preOrder.map some := by
  induction n using childInduction with
  | step n ih =>
    rw [prePaths_eq, preOrder_eq, List.map_cons, List.map_cons, at?_nil,
      map_at?_branches List.drop_zero, List.map_flatMap]
    congr 1
    exact List.flatMap_congr ih

theorem map_at?_postPaths (n : Node) : n.postPaths.map n.at? = n.postOrder.map some := by
  induction n using childInduction with
  | step n ih =>
    rw [postPaths_eq, postOrder_eq, List.map_append, List.map_append,
      map_at?_branches List.drop_zero, List.map_flatMap]
    congr 1
    exact List.flatMap_congr ih

/-- `preOrder` goes through the paths in lexicographic order, a path before those that it begins. -/
theorem pairwise_prePaths (n : Node) : n.prePaths.Pairwise (List.Lex (· < ·)) := by
  induction n using childInduction with
  | step n ih =>
    rw [prePaths_eq, List.pairwise_cons]
    refine ⟨fun path hpath => ?_, pairwise_branches ?_ ?_ ?_ 0⟩
    · obtain ⟨j, -, rest, -, -, rfl⟩ := mem_branches.mp hpath
      exact .nil
    · exact fun i p q hpq => .cons hpq
    · exact fun i j p q hij => .rel hij
    · simpa using ih

/-- The first path may stand before the second one if everything comes after what is below it and
the children of a node keep their order. -/
structure MayPrecede (p q : List Nat) : Prop where
  not_above : ¬ p <+: q
  siblings : ∀ path i j, p = path ++ [i] → q = path ++ [j] → i < j

theorem MayPrecede.cons {p q : List Nat} (h : MayPrecede p q) (i : Nat) :
    MayPrecede (i :: p) (i :: q) := by
  refine ⟨fun hprefix => h.not_above ((List.cons_prefix_cons.mp hprefix).2), ?_⟩
  rintro (_ | ⟨k, path⟩) x y hp hq
  · -- both would be the child itself, and a path may not precede itself
    obtain ⟨-, rfl⟩ := List.cons.inj hp
    exact absurd List.nil_prefix h.not_above
  · exact h.siblings path x y (List.cons.inj hp).2 (List.cons.inj hq).2

theorem MayPrecede.of_lt {i j : Nat} (h : i < j) (p q : List Nat) :
    MayPrecede (i :: p) (j :: q) := by
  refine ⟨fun hprefix => ?_, ?_⟩
  · exact absurd (List.cons_prefix_cons.mp hprefix).1 (Nat.ne_of_lt h)
  · rintro (_ | ⟨k, path⟩) x y hp hq
    · obtain ⟨rfl, -⟩ := List.cons.inj hp
      obtain ⟨rfl, -⟩ := List.cons.inj hq
      exact h
    · exact absurd ((List.cons.inj hp).1.trans (List.cons.inj hq).1.symm) (Nat.ne_of_lt h)

theorem pairwise_postPaths (n : Node) : n.postPaths.Pairwise MayPrecede := by
  induction n using childInduction with
  | step n ih =>
    rw [postPaths_eq, List.pairwise_append]
    refine ⟨pairwise_branches (fun i p q hpq => hpq.cons i) (fun i j p q hij => .of_lt hij p q)
      (by simpa using ih) 0, List.pairwise_singleton _ _, ?_⟩
    intro p hp q hq
    obtain rfl := List.mem_singleton.mp hq
    obtain ⟨j, -, rest, -, -, rfl⟩ := mem_branches.mp hp
    exact ⟨by simp, by simp⟩

end Node
end SlotTree

import SlotTree.Builtin.Registry
import SlotTree.Tree.Block

/-!
# Filling fresh slots

The operations of `SlotTree.Tree` on slots that are still empty, as closed equations: what
is left of the checks is whether the expression fits the type.  A fresh slot has no
constrained slot, so there is nothing to re-type, and it is not occupied.

The builtins of the default registry are listed here as well, because whether a name
stands for a type decides which slots it can fill.
-/

namespace SlotTree

namespace Slot

/-- A slot of a type that holds an expression. -/
def holding (t : Ty) (e : Expr) : Slot := ⟨t, .expr e, none⟩

@[simp] theorem expr?_holding (t : Ty) (e : Expr) : (holding t e).expr? = some e := rfl

@[simp] theorem type_holding (t : Ty) (e : Expr) : (holding t e).type = t := rfl

@[simp] theorem isOccupied_holding (t : Ty) (e : Expr) : (holding t e).isOccupied = true := rfl

/-- A slot that constrains no other has nothing to re-type. -/
theorem applyConstraint_of_none {s : Slot} (h : s.constraint = none) :
    s.applyConstraint = (none, s) := by
  rw [applyConstraint, h]
  cases s.expr?.bind Expr.asType? <;> rfl

/-- A fresh slot takes an expression exactly if it fits. -/
theorem add_ofType {t : Ty} (ht : t.head.isLiteral = false) (e : Expr) :
    (ofType t).add e =
      if e.valueType.fits t then (.ok (), holding t e)
      else (.error ((ofType t).mismatch e), ofType t) := by
  have hlit : (ofType t).isLiteralSlot = false := ht
  have hocc : (ofType t).isOccupied = false := rfl
  have hacc : (ofType t).accepts e = e.valueType.fits t := rfl
  have happly : applyConstraint { ofType t with content := .expr e } = (none, holding t e) :=
    applyConstraint_of_none rfl
  rw [add, place, hlit, hocc, hacc, happly]
  cases e.valueType.fits t <;> rfl

theorem add_object (e : Expr) :
    object.add e =
      if e.valueType.fits (.plain .object) then (.ok (), holding (.plain .object) e)
      else (.error (object.mismatch e), object) :=
  add_ofType rfl e

end Slot

theorem Expr.callOf_eq_ok_iff {func e : Expr} {span : Span} :
    func.callOf span = .ok e ↔
      func.valueType.fits (.plain .object) = true ∧
        e = .call (.holding (.plain .object) func) (.ofType (.plain .object))
          (.ofType (.plain .keyword)) {} span := by
  rw [callOf, Slot.add_object]
  cases func.valueType.fits (.plain .object) with
  | false => simp
  | true => simp [eq_comm]

namespace Stmt

theorem ofExpr_eq_ok_iff {e : Expr} {span : Span} {s : Stmt} :
    ofExpr e span = .ok s ↔
      e.valueType.fits (.plain .object) = true ∧
        s = .expression (.holding (.plain .object) e) span := by
  rw [ofExpr, Slot.add_object]
  cases e.valueType.fits (.plain .object) with
  | false => simp
  | true => simp [eq_comm]

/-- The type slot of a variable statement that declares a type. -/
def typeSlot (t : Ty) (span : Span) (constrained : Option Slot) : Slot :=
  ⟨.plain .type, .expr (.type t span), constrained⟩

/-- Declaring the type of a fresh declaration always succeeds. -/
theorem setType?_declare (id : String) (span : Span) (t : Ty) (at_ : Span) :
    (declare id span).setType? t at_ =
      some (.ok none, .declaration (.ofLiteral (.str id)) (typeSlot t at_ none) span) := rfl

/-- Declaring the type of a fresh definition always succeeds, and types the slot of its
value. -/
theorem setType?_define (id : String) (span : Span) (t : Ty) (at_ : Span) :
    (define id span).setType? t at_ =
      some (.ok none,
        .definition (.ofLiteral (.str id)) (typeSlot t at_ (some (.ofType t))) span) := rfl

/-- A definition whose slot of the value is fresh takes exactly the values that fit. -/
theorem setValue?_definition {t : Ty} (ht : t.head.isLiteral = false) (id : Slot) (at_ span : Span)
    (e : Expr) :
    (definition id (typeSlot t at_ (some (.ofType t))) span).setValue? e =
      if e.valueType.fits t then
        some (.ok (), .definition id (typeSlot t at_ (some (.holding t e))) span)
      else
        some (.error ((Slot.ofType t).mismatch e),
          .definition id (typeSlot t at_ (some (.ofType t))) span) := by
  simp only [setValue?, typeSlot, Slot.add_ofType ht]
  cases e.valueType.fits t <;> rfl

end Stmt

namespace Registry

/-- The builtins that every script knows, one by one. -/
theorem find?_default {name : String} {constructor : Constructor}
    (h : default.find? name = some constructor) :
    (∃ c, c ∈ [Class.object, .bool, .int, .float, .str, .list] ∧
        constructor = typeConstructor c) ∨
      constructor = Expr.ofLiteral .none ∨ (name = "print" ∧ constructor = Expr.emptyPrint) := by
  rw [find?, Option.map_eq_some_iff] at h
  obtain ⟨⟨key, made⟩, hfind, rfl⟩ := h
  have hkey : key = name := by simpa using List.find?_some hfind
  have hmem := List.mem_of_find?_eq_some hfind
  simp only [default, List.mem_cons, Prod.mk.injEq, List.not_mem_nil, or_false] at hmem
  rcases hmem with h | h | h | h | h | h | h | h
  all_goals obtain ⟨rfl, rfl⟩ := h
  all_goals simp_all

end Registry
end SlotTree

import SlotTree.Proofs.Ty.Signature
import SlotTree.Tree.Slot
import Mathlib.Data.List.Nodup

/-!
# Types that fit themselves

A type is well formed if it is no marker and every signature in it is laid out in the usual
order, with well-formed types in it and different names for its keywords.  A well-formed type
fits where it is itself required (`WellFormed.fits_self`).

For classes and lists this is the class tree.  For a callable it says that its signature
covers itself, and there the names matter: a keyword is compared with the first namesake on
the other side, which is the keyword itself only if it has no other namesake
(`ParamList.keyword?_of_mem`).  Markers fit nothing, not even themselves, so this is not true
of types at large and the induction goes over well-formed ones.

The types of the values of expressions are well formed, all of them.  So a slot that is
re-typed after the expression in it has no reason to give the expression up.
-/

namespace SlotTree
namespace Ty

/-- A type that is no marker, and in which every signature lists well-formed positional types,
perhaps `*args`, keyword-only parameters of different names with well-formed types, and perhaps
`**kwargs`, and returns a well-formed type.  Items of lists are never compared, so nothing is
asked of them. -/
inductive WellFormed : Ty → Prop where
  | plain {c : Class} (isType : roleOf c = .positional) : WellFormed (plain c)
  | list (item : Ty) : WellFormed (list item)
  | callable (params : ParamList) {result : Ty} (isFunction : Bool)
      (positional : ∀ t ∈ params.positional, WellFormed t)
      (keywords : ∀ k ∈ params.keywords, WellFormed k.arg)
      (distinct : (params.keywords.map KeywordParam.name).Nodup)
      (returned : WellFormed result) : WellFormed (callable params.types result isFunction)

/-! ## A signature covers itself -/

namespace ParamList

/-- The signature with these keywords and no positional parameters. -/
def ofKeywords (rest : Bool) (keywords : List KeywordParam) (keywordRest : Bool) : ParamList where
  positional := []
  rest := rest
  keywords := keywords
  keywordRest := keywordRest
  role_positional := List.forall_mem_nil _

/-- Among keywords of different names each is the first of its name. -/
theorem keyword?_of_mem {s : ParamList} (hdistinct : (s.keywords.map KeywordParam.name).Nodup)
    {k : KeywordParam} (hk : k ∈ s.keywords) : s.keyword? k.name = some k := by
  obtain ⟨first, hfirst⟩ : ∃ first, s.keyword? k.name = some first := by
    rw [← Option.isSome_iff_exists, keyword?, List.find?_isSome]
    exact ⟨k, hk, beq_self_eq_true k.name⟩
  have hmem : first ∈ s.keywords := List.mem_of_find?_eq_some hfirst
  have hname : first.name = k.name := by simpa using List.find?_some hfirst
  rw [hfirst, List.inj_on_of_nodup_map hdistinct hmem hk hname]

/-- A signature covers itself if its types fit themselves and its keywords have different
names. -/
theorem covers_self {s : ParamList} (hpositional : ∀ t ∈ s.positional, t.fits t = true)
    (hkeywords : ∀ k ∈ s.keywords, k.arg.fits k.arg = true)
    (hdistinct : (s.keywords.map KeywordParam.name).Nodup) : s.Covers s where
  pairwise pair hpair := by
    rw [List.zip, List.zipWith_self, List.mem_map] at hpair
    obtain ⟨t, ht, rfl⟩ := hpair
    exact hpositional t ht
  surplus h := absurd h (Nat.lt_irrefl _)
  missing h := absurd h (Nat.lt_irrefl _)
  passed hrest hnone := absurd (hrest.symm.trans hnone) (by decide)
  keywordRest _ _ h := h
  keywords _ _ k hk _ := Or.inl ⟨k, keyword?_of_mem hdistinct hk, hkeywords k hk⟩
  unasked h hnone := absurd h hnone
  ignored hnone h := absurd h hnone

end ParamList

/-! ## A well-formed type fits itself -/

/-- Callables are compared by their parameters and, unless nothing is expected back, by what
they return. -/
theorem fits_callable (params requiredParams : List Ty) (result requiredResult : Ty)
    (isFunction requiredIsFunction : Bool) :
    (callable params result isFunction).fits
        (callable requiredParams requiredResult requiredIsFunction) =
      (paramsFit (owns params) requiredParams &&
        (requiredResult.head.isSubclassOf .noneType || result.fits requiredResult)) := by
  cases requiredIsFunction <;> rfl

/-- A class that is no marker fits itself. -/
theorem fits_plain_self {c : Class} (h : roleOf c = .positional) :
    (plain c).fits (plain c) = true := by
  cases c with
  | variadicArg | variadicKeywordArg | keywordOnlyArg => cases h
  | _ => rfl

/-- **A well-formed type fits where it is required.** -/
theorem WellFormed.fits_self {t : Ty} (h : t.WellFormed) : t.fits t = true := by
  induction h with
  | plain isType => exact fits_plain_self isType
  | list item => rfl
  | callable params isFunction _ _ distinct _ positional keywords returned =>
    have hcovers := ParamList.covers_self positional keywords distinct
    have hparams := (ParamList.paramsFit_iff_covers params params).mpr hcovers
    rw [fits_callable, hparams, returned, Bool.or_true]
    rfl

/-- A marker fits nothing. -/
theorem not_fits_of_marker {t : Ty} (h : t.role ≠ .positional) (required : Ty) :
    t.fits required = false := by
  cases t with
  | plain c =>
    cases c with
    | variadicArg | variadicKeywordArg | keywordOnlyArg => rfl
    | _ => exact absurd rfl h
  | keywordOnly => rfl
  | list => exact absurd rfl h
  | callable params result isFunction => cases isFunction <;> exact absurd rfl h

end Ty

/-! ## The types of values -/

/-- The parameters of `print`. -/
def printParams : Ty.ParamList :=
  .ofKeywords true
    [⟨"sep", true, .plain .str⟩, ⟨"end", true, .plain .str⟩, ⟨"file", true, .plain .object⟩,
      ⟨"flush", true, .plain .bool⟩]
    false

/-- Every expression evaluates to something of a well-formed type. -/
theorem Expr.wellFormed_valueType (e : Expr) : e.valueType.WellFormed := by
  cases e with
  | literal kind => cases kind <;> exact .plain rfl
  | load | keyword | type | call => exact .plain rfl
  | print =>
    have hkeywords : ∀ k ∈ printParams.keywords, k.arg.WellFormed := by
      simp only [printParams, Ty.ParamList.ofKeywords, List.mem_cons, List.not_mem_nil, or_false]
      rintro k (rfl | rfl | rfl | rfl) <;> exact .plain rfl
    exact .callable printParams true (List.forall_mem_nil _) hkeywords (by decide) (.plain rfl)

/-- **A well-formed type fits itself, and re-typing a slot after its own expression keeps the
expression.**  Markers, which are no types of values, do not fit themselves. -/
theorem wellFormed_types_fit_themselves :
    (∀ t : Ty, t.WellFormed → t.fits t = true) ∧
      (∀ t : Ty, t.role ≠ .positional → t.fits t = false) ∧
      ∀ (s : Slot) (e : Expr), s.expr? = some e →
        s.constrain e.valueType = (none, { s with type := e.valueType }) := by
  refine ⟨fun t h => h.fits_self, fun t h => Ty.not_fits_of_marker h t, fun s e he => ?_⟩
  obtain ⟨type, content, constraint⟩ := s
  cases content with
  | empty | literal => cases he
  | expr held =>
    obtain rfl : held = e := Option.some.inj he
    have hfits := held.wellFormed_valueType.fits_self
    simp [Slot.constrain, Slot.accepts, hfits]

/-- The parameters of a task that insists on being told when to give up. -/
def taskParams : Ty.ParamList := .ofKeywords true [⟨"timeout", false, .plain .float⟩] false

/-- Parameters of every sort, of which one takes a task. -/
def retryParams : Ty.ParamList where
  positional := [.callable taskParams.types (.plain .object) false]
  rest := true
  keywords := [⟨"limits", false, .list (.plain .int)⟩, ⟨"strict", true, .plain .bool⟩]
  keywordRest := true
  role_positional := List.forall_mem_singleton.mpr rfl

theorem wellFormed_types_fit_themselves_retry :
    (Ty.callable retryParams.types (.plain .noneType) true).WellFormed ∧
      (Ty.callable retryParams.types (.plain .noneType) true).fits
        (.callable retryParams.types (.plain .noneType) true) = true ∧
      (Ty.plain .variadicArg).fits (.plain .variadicArg) = false ∧
      (Slot.mk (.plain .object) (.expr (.emptyPrint .detached)) none).constrain Expr.printType =
        (none, ⟨Expr.printType, .expr (.emptyPrint .detached), none⟩) := by
  have htask : (Ty.callable taskParams.types (.plain .object) false).WellFormed :=
    .callable taskParams false (List.forall_mem_nil _) (List.forall_mem_singleton.mpr (.plain rfl))
      (by decide) (.plain rfl)
  have hretry : (Ty.callable retryParams.types (.plain .noneType) true).WellFormed := by
    refine .callable retryParams true (by simpa [retryParams] using htask) ?_ (by decide)
      (.plain rfl)
    simpa [retryParams] using ⟨.list _, .plain rfl⟩
  obtain ⟨hself, hmarker, hslot⟩ := wellFormed_types_fit_themselves
  exact ⟨hretry, hself _ hretry, hmarker _ (by decide), hslot _ (.emptyPrint .detached) rfl⟩

end SlotTree

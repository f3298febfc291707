import SlotTree.Proofs.Ty.WellFormed
import Mathlib.Data.Fintype.EquivFin

/-!
# Keywords that a callable insists on

Whoever calls through a required signature passes the keywords that it names and, if it has
`**kwargs`, any others.  A callable that stands in for it and insists on a keyword gets this
keyword only then (`ParamList.SuppliedBy`).

The comparison of signatures looks after this on one of its two ways alone.  If the required
signature takes no keywords, all keywords of the provided one must be optional.  If both take
keywords, they are compared by name, and only what the required side insists on is looked for.
A keyword that the provided side insists on and nobody passes goes through there.

`required_keywords_supplied_iff` says for which required signatures this can happen: for those
that take keywords but not any keyword.  `insisting` is the callable that slips through, a
signature that takes whatever it is given and insists on one keyword of its own.
-/

namespace SlotTree
namespace Ty
namespace ParamList

/-- Every keyword that the signature insists on is passed by whoever calls through the required
one, which names it or takes any keyword. -/
def SuppliedBy (own required : ParamList) : Prop :=
  ∀ k ∈ own.keywords, k.optional = false →
    (∃ q ∈ required.keywords, q.name = k.name) ∨ required.keywordRest = true

/-- Where a covered signature takes no keywords or any keyword, all that is insisted on is
passed. -/
theorem Covers.suppliedBy {own required : ParamList} (h : own.Covers required)
    (hrequired : required.HasKeywords → required.keywordRest = true) :
    own.SuppliedBy required := by
  intro k hk hinsists
  by_cases hkeywords : required.HasKeywords
  · exact Or.inr (hrequired hkeywords)
  · have hown : own.HasKeywords := Or.inl (List.ne_nil_of_mem hk)
    rw [h.unasked hown hkeywords k hk] at hinsists
    cases hinsists

/-- A signature that takes whatever it is given and insists on one keyword. -/
def insisting (name : String) : ParamList :=
  .ofKeywords true [⟨name, false, .plain .object⟩] true

/-- It covers every signature with keywords that do not include its own. -/
theorem insisting_covers {required : ParamList} {name : String}
    (hname : ∀ q ∈ required.keywords, q.name ≠ name) (hkeywords : required.HasKeywords) :
    (insisting name).Covers required where
  pairwise pair hpair := by simp [insisting, ofKeywords] at hpair
  surplus h := absurd h (Nat.not_lt_zero _)
  missing _ := rfl
  passed _ hnone := by cases hnone
  keywordRest _ _ _ := rfl
  keywords _ _ q hq _ := by
    refine Or.inr ⟨?_, rfl⟩
    simpa [keyword?, insisting, ofKeywords] using (hname q hq).symm
  unasked _ hnone := absurd hkeywords hnone
  ignored hnone _ := absurd (Or.inl (List.cons_ne_nil _ _)) hnone

/-- There is always another name. -/
theorem exists_name_ne (keywords : List KeywordParam) :
    ∃ name, ∀ q ∈ keywords, q.name ≠ name := by
  obtain ⟨name, hname⟩ :=
    Infinite.exists_notMem_finset (keywords.map KeywordParam.name).toFinset
  refine ⟨name, fun q hq heq => hname ?_⟩
  rw [List.mem_toFinset, ← heq]
  exact List.mem_map_of_mem hq

end ParamList

/-- **When a required signature guards against keywords that nobody passes.**  Every callable
that fits has its required keywords passed exactly if the required signature takes no keywords
at all or takes any keyword. -/
theorem required_keywords_supplied_iff (required : ParamList) (requiredResult : Ty)
    (hresult : requiredResult.WellFormed) (requiredIsFunction : Bool) :
    (∀ (own : ParamList) (result : Ty) (isFunction : Bool),
        (callable own.types result isFunction).fits
            (callable required.types requiredResult requiredIsFunction) = true →
          own.SuppliedBy required) ↔
      (required.HasKeywords → required.keywordRest = true) := by
  constructor
  · intro h hkeywords
    obtain ⟨name, hname⟩ := ParamList.exists_name_ne required.keywords
    have hcovers := ParamList.insisting_covers hname hkeywords
    have hfits : (callable (ParamList.insisting name).types requiredResult false).fits
        (callable required.types requiredResult requiredIsFunction) = true := by
      rw [fits_callable, (ParamList.paramsFit_iff_covers _ _).mpr hcovers, hresult.fits_self,
        Bool.or_true]
      rfl
    rcases h _ _ _ hfits _ List.mem_cons_self rfl with ⟨q, hq, heq⟩ | hrest
    · exact absurd heq (hname q hq)
    · exact hrest
  · intro hrequired own result isFunction hfits
    rw [fits_callable, Bool.and_eq_true] at hfits
    exact ((ParamList.paramsFit_iff_covers own required).mp hfits.1).suppliedBy hrequired

/-- The signature of `print` takes four keywords and no others, so it does not guard. -/
theorem required_keywords_supplied_iff_print :
    (plain .noneType).WellFormed ∧
      ¬ ∀ (own : ParamList) (result : Ty) (isFunction : Bool),
        (callable own.types result isFunction).fits Expr.printType = true →
          own.SuppliedBy printParams := by
  have hnone : (plain .noneType).WellFormed := .plain rfl
  refine ⟨hnone, fun h => ?_⟩
  have hrest := (required_keywords_supplied_iff printParams (plain .noneType) hnone true).mp h
  exact absurd (hrest (Or.inl (List.cons_ne_nil _ _))) (by decide)

/-- **An unrelated keyword hides one that nobody passes.**  A callable that insists on the
keyword `a` is refused where no keywords are passed, and fits where at most `b` is. -/
theorem unrelated_keyword_hides_required_one :
    let own : ParamList := .ofKeywords false [⟨"a", false, plain .str⟩] false
    let required : ParamList := .ofKeywords false [⟨"b", true, plain .str⟩] false
    (callable own.types (plain .noneType) false).fits (callable [] (plain .noneType) false) =
        false ∧
      (callable own.types (plain .noneType) false).fits
        (callable required.types (plain .noneType) false) = true ∧
      ¬ own.SuppliedBy required := by
  refine ⟨rfl, rfl, fun h => ?_⟩
  rcases h ⟨"a", false, plain .str⟩ (List.mem_singleton_self _) rfl with ⟨q, hq, hname⟩ | hrest
  · obtain rfl := List.mem_singleton.mp hq
    exact absurd hname (by decide)
  · cases hrest

end Ty
end SlotTree

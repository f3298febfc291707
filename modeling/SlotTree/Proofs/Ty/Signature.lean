import SlotTree.Ty.Fits
import Mathlib.Logic.Basic

/-!
# When one signature covers another

`paramsFit` decides by a walk over two lists whether a callable may stand where another
is required.  This file says what the walk decides, for signatures that are laid out in
the usual order: positional parameters, then perhaps `*args`, then keyword-only
parameters, then perhaps `**kwargs`.  `ParamList` is such a signature, and
`ParamList.Covers` is the rule, one field for each thing that can go wrong.

The walk is followed stretch by stretch, and each stretch has its equation:

* `paramsFit_positional`: as long as both sides have positional parameters, these are
  compared pairwise;
* `paramsFit_surplus`, `paramsFit_missing`: what one side has more must be met by
  `*args` of the other;
* `paramsFit_rest`: `*args` themselves, of which the required one can only be passed
  over when something stands behind it;
* `paramsFit_markers`: the keywords, which are compared by name only if both sides have
  some.

The last point is the one that surprises: a callable that needs no keyword and one that
takes only optional ones go together in either direction, and in neither direction is a
type of a keyword looked at.
-/

namespace SlotTree
namespace Ty

/-! ## Signatures in the usual order -/

/-- A parameter that can only be passed by keyword. -/
structure KeywordParam where
  name : String
  optional : Bool
  arg : Ty

/-- The type by which a signature lists a keyword-only parameter. -/
def KeywordParam.marker (k : KeywordParam) : Ty := keywordOnly k.name k.optional k.arg

/-- The `*args` of a signature, if it has one. -/
def restMarker (rest : Bool) : List Ty := if rest then [plain .variadicArg] else []

/-- The keyword-only parameters of a signature, and then its `**kwargs` if it has one. -/
def keywordMarkers (keywords : List KeywordParam) (rest : Bool) : List Ty :=
  keywords.map KeywordParam.marker ++ if rest then [plain .variadicKeywordArg] else []

/-- The parameters of a signature that is laid out in the usual order. -/
structure ParamList where
  positional : List Ty
  /-- Whether `*args` takes further positional arguments. -/
  rest : Bool
  keywords : List KeywordParam
  /-- Whether `**kwargs` takes further keyword arguments. -/
  keywordRest : Bool
  role_positional : ∀ t ∈ positional, t.role = .positional

namespace ParamList

/-- The parameters as the list of types that a callable carries. -/
def types (s : ParamList) : List Ty :=
  s.positional ++ (restMarker s.rest ++ keywordMarkers s.keywords s.keywordRest)

/-- Whether anything is taken by keyword. -/
def HasKeywords (s : ParamList) : Prop := s.keywords ≠ [] ∨ s.keywordRest = true

/-- The first keyword-only parameter of the given name. -/
def keyword? (s : ParamList) (name : String) : Option KeywordParam :=
  s.keywords.find? fun k => k.name == name

/-- A keyword of the required signature is taken by the first namesake, which must then
take its type, and only for want of one by `**kwargs`. -/
def TakesKeyword (own : ParamList) (k : KeywordParam) : Prop :=
  (∃ o, own.keyword? k.name = some o ∧ o.arg.fits k.arg = true) ∨
    (own.keyword? k.name = none ∧ own.keywordRest = true)

/-- When a signature may stand where another is required. -/
structure Covers (own required : ParamList) : Prop where
  /-- The positional parameters that both have are compared pairwise. -/
  pairwise : ∀ pair ∈ own.positional.zip required.positional, pair.1.fits pair.2 = true
  /-- Further positional parameters of its own are met by `*args` of the other. -/
  surplus : required.positional.length < own.positional.length → required.rest = true
  /-- Further positional parameters of the other are met by its own `*args`. -/
  missing : own.positional.length < required.positional.length → own.rest = true
  /-- The other's `*args` is passed over only on the way to a keyword. -/
  passed : required.rest = true → own.rest = false → own.HasKeywords
  /-- Of two signatures with keywords, `**kwargs` is met by `**kwargs`. -/
  keywordRest : own.HasKeywords → required.HasKeywords →
    required.keywordRest = true → own.keywordRest = true
  /-- Of two signatures with keywords, every keyword insisted on is taken. -/
  keywords : own.HasKeywords → required.HasKeywords →
    ∀ k ∈ required.keywords, k.optional = false → own.TakesKeyword k
  /-- Keywords that the other never passes are optional. -/
  unasked : own.HasKeywords → ¬ required.HasKeywords → ∀ k ∈ own.keywords, k.optional = true
  /-- A signature without keywords meets optional ones only. -/
  ignored : ¬ own.HasKeywords → required.HasKeywords →
    (∀ k ∈ required.keywords, k.optional = true) ∧ required.keywordRest = false

end ParamList

/-! ## Roles of the markers -/

@[simp] theorem role_marker (k : KeywordParam) : k.marker.role = .keyword := rfl

@[simp] theorem argType_marker (k : KeywordParam) : k.marker.argType = k.arg := rfl

@[simp] theorem isOptionalKeyword_marker (k : KeywordParam) :
    isOptionalKeyword k.marker = k.optional := rfl

@[simp] theorem head_marker (k : KeywordParam) : k.marker.head = .keywordOnlyArg := rfl

@[simp] theorem isKeywordParam_marker (k : KeywordParam) : isKeywordParam k.marker = true := rfl

@[simp] theorem role_variadicArg : (plain .variadicArg).role = .variadic := rfl

@[simp] theorem role_variadicKeywordArg : (plain .variadicKeywordArg).role = .keyword := rfl

/-- A positional parameter is no keyword-only one, so its argument has its own type. -/
theorem argType_of_positional {t : Ty} (h : t.role = .positional) : t.argType = t := by
  cases t with
  | keywordOnly => cases h
  | plain | list | callable => rfl

theorem isOptionalKeyword_of_positional {t : Ty} (h : t.role = .positional) :
    isOptionalKeyword t = false := by
  cases t with
  | keywordOnly => cases h
  | plain | list | callable => rfl

theorem role_of_mem_keywordMarkers {keywords : List KeywordParam} {rest : Bool} {t : Ty}
    (h : t ∈ keywordMarkers keywords rest) : t.role = .keyword := by
  cases rest <;> grind [keywordMarkers, role_marker, role_variadicKeywordArg]

theorem keywordMarkers_cons (k : KeywordParam) (keywords : List KeywordParam) (rest : Bool) :
    keywordMarkers (k :: keywords) rest = k.marker :: keywordMarkers keywords rest := rfl

theorem keywordMarkers_eq_nil_iff {keywords : List KeywordParam} {rest : Bool} :
    keywordMarkers keywords rest = [] ↔ keywords = [] ∧ rest = false := by
  simp [keywordMarkers]

/-! ## The walk over one stretch at a time -/

section Walk

variable {ps qs own required : List Ty}

theorem owns_cons (t : Ty) (ts : List Ty) :
    owns (t :: ts) = ⟨t, fits t.argType⟩ :: owns ts := by simp [owns_eq_map]

theorem paramsFit_nil : paramsFit (owns []) required = required.all isOptionalKeyword := rfl

/-- Two positional parameters are compared with each other. -/
theorem paramsFit_cons_cons {p q : Ty} (hp : p.role = .positional) (hq : q.role = .positional) :
    paramsFit (owns (p :: own)) (q :: required) =
      (p.fits q && paramsFit (owns own) required) := by
  simp [owns_cons, paramsFit, hp, hq, argType_of_positional hp]

theorem paramsFit_positional (hps : ∀ t ∈ ps, t.role = .positional)
    (hqs : ∀ t ∈ qs, t.role = .positional) :
    paramsFit (owns (ps ++ own)) (qs ++ required) = true ↔
      (∀ pair ∈ ps.zip qs, pair.1.fits pair.2 = true) ∧
        paramsFit (owns (ps.drop qs.length ++ own)) (qs.drop ps.length ++ required) = true := by
  induction ps generalizing qs with
  | nil => simp
  | cons p ps ih =>
    cases qs with
    | nil => simp
    | cons q qs =>
      have hp : p.role = .positional := hps p (by simp)
      have hq : q.role = .positional := hqs q (by simp)
      have hps' : ∀ t ∈ ps, t.role = .positional := fun t ht => hps t (by simp [ht])
      have hqs' : ∀ t ∈ qs, t.role = .positional := fun t ht => hqs t (by simp [ht])
      rw [List.cons_append, List.cons_append, paramsFit_cons_cons hp hq, Bool.and_eq_true,
        ih hps' hqs']
      simp [and_assoc]

/-- In front of the required `*args`, positional parameters are passed over. -/
theorem paramsFit_skip (hps : ∀ t ∈ ps, t.role = .positional) :
    paramsFit (owns (ps ++ own)) (plain .variadicArg :: required) =
      paramsFit (owns own) (plain .variadicArg :: required) := by
  induction ps with
  | nil => rfl
  | cons p ps ih =>
    have hp : p.role = .positional := hps p (by simp)
    have ih := ih fun t ht => hps t (by simp [ht])
    simp [owns_cons, paramsFit, hp, ih]

/-- Positional parameters that only the provided callable has are taken by `*args` of
the required one, and by nothing else that can stand there. -/
theorem paramsFit_surplus (hps : ∀ t ∈ ps, t.role = .positional) (rest : Bool)
    (hrequired : ∀ t ∈ required, t.role = .keyword) :
    paramsFit (owns (ps ++ own)) (restMarker rest ++ required) = true ↔
      (ps ≠ [] → rest = true) ∧
        paramsFit (owns own) (restMarker rest ++ required) = true := by
  cases rest with
  | true => simp [restMarker, paramsFit_skip hps]
  | false =>
    cases ps with
    | nil => simp
    | cons p ps =>
      have hp : p.role = .positional := hps p (by simp)
      cases required with
      | nil => simp [restMarker, owns_cons, paramsFit, hp]
      | cons q required =>
        simp [restMarker, owns_cons, paramsFit, hp, hrequired q (by simp)]

/-- Positional parameters that only the required callable has are taken by `*args` of
the provided one, and by nothing else that can stand there. -/
theorem paramsFit_missing (hqs : ∀ t ∈ qs, t.role = .positional) (rest : Bool)
    (hown : ∀ t ∈ own, t.role = .keyword) :
    paramsFit (owns (restMarker rest ++ own)) (qs ++ required) = true ↔
      (qs ≠ [] → rest = true) ∧
        paramsFit (owns (restMarker rest ++ own)) required = true := by
  cases rest with
  | true =>
    have hdrop : (qs ++ required).dropWhile (fun q => q.role == .positional) =
        required.dropWhile fun q => q.role == .positional :=
      List.dropWhile_append_of_pos fun q hq => by simp [hqs q hq]
    simp [restMarker, owns_cons, paramsFit, hdrop]
  | false =>
    cases qs with
    | nil => simp
    | cons q qs =>
      have hq : q.role = .positional := hqs q (by simp)
      cases own with
      | nil => simp [restMarker, paramsFit_nil, isOptionalKeyword_of_positional hq]
      | cons t own =>
        have ht : t.role = .keyword := hown t (by simp)
        simp [restMarker, owns_cons, paramsFit, ht, hq]

/-- Both together, as at most one side has something over. -/
theorem paramsFit_leftover (hps : ∀ t ∈ ps, t.role = .positional)
    (hqs : ∀ t ∈ qs, t.role = .positional) (h : ps = [] ∨ qs = []) (ownRest requiredRest : Bool)
    (hown : ∀ t ∈ own, t.role = .keyword) (hrequired : ∀ t ∈ required, t.role = .keyword) :
    paramsFit (owns (ps ++ (restMarker ownRest ++ own)))
        (qs ++ (restMarker requiredRest ++ required)) = true ↔
      (ps ≠ [] → requiredRest = true) ∧ (qs ≠ [] → ownRest = true) ∧
        paramsFit (owns (restMarker ownRest ++ own))
          (restMarker requiredRest ++ required) = true := by
  rcases h with rfl | rfl
  · rw [List.nil_append, paramsFit_missing hqs ownRest hown]
    simp
  · rw [List.nil_append, paramsFit_surplus hps requiredRest hrequired]
    simp

/-- `*args` takes nothing further once the positional parameters are through; the
required one can be passed over only by `*args` or by a keyword. -/
theorem paramsFit_rest (ownRest requiredRest : Bool) (hown : ∀ t ∈ own, t.role = .keyword)
    (hrequired : ∀ t ∈ required, t.role = .keyword) :
    paramsFit (owns (restMarker ownRest ++ own)) (restMarker requiredRest ++ required) = true ↔
      (requiredRest = true → ownRest = false → own ≠ []) ∧
        paramsFit (owns own) required = true := by
  cases ownRest with
  | true =>
    cases requiredRest with
    | true => simp [restMarker, owns_cons, paramsFit]
    | false =>
      cases required with
      | nil => simp [restMarker, owns_cons, paramsFit]
      | cons q required =>
        have hq : q.role = .keyword := hrequired q (by simp)
        simp [restMarker, owns_cons, paramsFit, hq]
  | false =>
    cases requiredRest with
    | false => simp [restMarker]
    | true =>
      cases own with
      | nil => simp [restMarker, paramsFit_nil, isOptionalKeyword]
      | cons t own =>
        have ht : t.role = .keyword := hown t (by simp)
        simp [restMarker, owns_cons, paramsFit, ht]

end Walk

/-! ## Keywords -/

section Keywords

variable {keywords : List KeywordParam} {rest : Bool}

theorem any_variadicKeywordArg_keywordMarkers :
    ((keywordMarkers keywords rest).any fun t => t.head == .variadicKeywordArg) = rest := by
  cases rest <;> simp [keywordMarkers]

theorem all_isKeywordParam_keywordMarkers :
    (keywordMarkers keywords rest).all isKeywordParam = true := by
  cases rest with
  | false => simp [keywordMarkers]
  | true => simp [keywordMarkers, show isKeywordParam (plain .variadicKeywordArg) = true from rfl]

theorem all_isOptionalKeyword_keywordMarkers :
    (keywordMarkers keywords rest).all isOptionalKeyword = true ↔
      (∀ k ∈ keywords, k.optional = true) ∧ rest = false := by
  cases rest with
  | false => simp [keywordMarkers]
  | true => simp [keywordMarkers, show isOptionalKeyword (plain .variadicKeywordArg) = false from rfl]

/-- Looking a keyword up among the markers is looking it up among the parameters. -/
theorem ownKeyword?_keywordMarkers (name : String) :
    ownKeyword? name (owns (keywordMarkers keywords rest)) =
      (keywords.find? fun k => k.name == name).map fun k => fits k.arg := by
  induction keywords with
  | nil => cases rest <;> rfl
  | cons k keywords ih =>
    rw [keywordMarkers_cons, owns_cons, KeywordParam.marker, ownKeyword?, List.find?_cons]
    cases k.name == name with
    | true => rfl
    | false => exact ih

/-- Keywords that nobody passes must be optional; `**kwargs` is content with none. -/
theorem paramsFit_keywordMarkers_nil :
    paramsFit (owns (keywordMarkers keywords rest)) [] = true ↔
      ∀ k ∈ keywords, k.optional = true := by
  induction keywords with
  | nil => cases rest <;> simp [keywordMarkers, paramsFit, owns, role, roleOf]
  | cons k keywords ih =>
    simp [keywordMarkers_cons, owns_cons, paramsFit, ih]

/-- The keywords that a required signature insists on are those it does not mark as
optional; neither the optional ones nor `**kwargs` are asked of anybody. -/
theorem all_insisted_keywordMarkers (takes : String → Ty → Bool) :
    ((keywordMarkers keywords rest).all fun t =>
        match t with
        | keywordOnly name false arg => takes name arg
        | _ => true) = true ↔
      ∀ k ∈ keywords, k.optional = false → takes k.name k.arg = true := by
  induction keywords with
  | nil => cases rest <;> simp [keywordMarkers]
  | cons k keywords ih =>
    obtain ⟨name, optional, arg⟩ := k
    rw [keywordMarkers_cons, List.all_cons, Bool.and_eq_true, ih]
    cases optional <;> simp [KeywordParam.marker]

/-- Keywords are compared by name, with `**kwargs` as a last resort. -/
theorem keywordsFit_keywordMarkers (own required : ParamList) :
    keywordsFit (owns (keywordMarkers own.keywords own.keywordRest))
        (keywordMarkers required.keywords required.keywordRest) = true ↔
      (required.keywordRest = true → own.keywordRest = true) ∧
        ∀ k ∈ required.keywords, k.optional = false → own.TakesKeyword k := by
  have hany : ((owns (keywordMarkers own.keywords own.keywordRest)).any fun o =>
      o.param.head == .variadicKeywordArg) = own.keywordRest := by
    rw [owns_eq_map, List.any_map]
    exact any_variadicKeywordArg_keywordMarkers
  have hall : (owns (keywordMarkers own.keywords own.keywordRest)).all
      (fun o => isKeywordParam o.param) = true := by
    rw [owns_eq_map, List.all_map]
    exact all_isKeywordParam_keywordMarkers
  simp only [keywordsFit, hany, hall, any_variadicKeywordArg_keywordMarkers,
    all_isKeywordParam_keywordMarkers, Bool.true_and, Bool.and_eq_true]
  refine and_congr (by cases required.keywordRest <;> simp) ?_
  refine (all_insisted_keywordMarkers _).trans (forall₃_congr fun k _ _ => ?_)
  rw [ownKeyword?_keywordMarkers]
  cases h : own.keyword? k.name with
  | none => simp [ParamList.TakesKeyword, h, show own.keywords.find? _ = none from h]
  | some o => simp [ParamList.TakesKeyword, h, show own.keywords.find? _ = some o from h]

/-- With keywords on both sides, the walk goes over to the comparison by name. -/
theorem paramsFit_of_keywords {own required : List Ty} (hown : ∀ t ∈ own, t.role = .keyword)
    (hrequired : ∀ t ∈ required, t.role = .keyword) (ho : own ≠ []) (hr : required ≠ []) :
    paramsFit (owns own) required = keywordsFit (owns own) required := by
  obtain ⟨t, own, rfl⟩ := List.exists_cons_of_ne_nil ho
  obtain ⟨q, required, rfl⟩ := List.exists_cons_of_ne_nil hr
  simp [owns_cons, paramsFit, hown t, hrequired q]

theorem ParamList.hasKeywords_iff (s : ParamList) :
    s.HasKeywords ↔ keywordMarkers s.keywords s.keywordRest ≠ [] := by
  simp [HasKeywords, keywordMarkers_eq_nil_iff, imp_iff_not_or]

/-- The walk over the keywords: by name if both sides have some, and otherwise nothing
may be left that must be passed. -/
theorem paramsFit_markers (own required : ParamList) :
    paramsFit (owns (keywordMarkers own.keywords own.keywordRest))
        (keywordMarkers required.keywords required.keywordRest) = true ↔
      (own.HasKeywords → required.HasKeywords →
        (required.keywordRest = true → own.keywordRest = true) ∧
          ∀ k ∈ required.keywords, k.optional = false → own.TakesKeyword k) ∧
      (own.HasKeywords → ¬ required.HasKeywords → ∀ k ∈ own.keywords, k.optional = true) ∧
      (¬ own.HasKeywords → required.HasKeywords →
        (∀ k ∈ required.keywords, k.optional = true) ∧ required.keywordRest = false) := by
  by_cases ho : own.HasKeywords
  · by_cases hr : required.HasKeywords
    · rw [paramsFit_of_keywords (fun _ => role_of_mem_keywordMarkers)
          (fun _ => role_of_mem_keywordMarkers) (own.hasKeywords_iff.1 ho)
          (required.hasKeywords_iff.1 hr), keywordsFit_keywordMarkers]
      simp [ho, hr]
    · rw [not_not.1 (mt required.hasKeywords_iff.2 hr), paramsFit_keywordMarkers_nil]
      simp [ho, hr]
  · rw [not_not.1 (mt own.hasKeywords_iff.2 ho), paramsFit_nil,
      all_isOptionalKeyword_keywordMarkers]
    by_cases hr : required.HasKeywords
    · simp [ho, hr]
    · simp_all [ParamList.HasKeywords]

end Keywords

/-! ## The rule -/

namespace ParamList

/-- The walk over two signatures decides whether one covers the other. -/
theorem paramsFit_iff_covers (own required : ParamList) :
    paramsFit (owns own.types) required.types = true ↔ own.Covers required := by
  have hps : ∀ t ∈ own.positional.drop required.positional.length, t.role = .positional :=
    fun t ht => own.role_positional t (List.mem_of_mem_drop ht)
  have hqs : ∀ t ∈ required.positional.drop own.positional.length, t.role = .positional :=
    fun t ht => required.role_positional t (List.mem_of_mem_drop ht)
  have hown : ∀ t ∈ keywordMarkers own.keywords own.keywordRest, t.role = .keyword :=
    fun _ => role_of_mem_keywordMarkers
  have hrequired : ∀ t ∈ keywordMarkers required.keywords required.keywordRest,
      t.role = .keyword := fun _ => role_of_mem_keywordMarkers
  have hone : own.positional.drop required.positional.length = [] ∨
      required.positional.drop own.positional.length = [] := by
    simp only [List.drop_eq_nil_iff]
    omega
  rw [types, types, paramsFit_positional own.role_positional required.role_positional,
    paramsFit_leftover hps hqs hone _ _ hown hrequired, paramsFit_rest _ _ hown hrequired,
    ← hasKeywords_iff, paramsFit_markers]
  simp only [ne_eq, List.drop_eq_nil_iff, Nat.not_le]
  constructor
  · rintro ⟨pairwise, surplus, missing, passed, both, unasked, ignored⟩
    exact
      { pairwise, surplus, missing, passed, unasked, ignored
        keywordRest := fun ho hr => (both ho hr).1
        keywords := fun ho hr => (both ho hr).2 }
  · intro h
    exact ⟨h.pairwise, h.surplus, h.missing, h.passed,
      fun ho hr => ⟨h.keywordRest ho hr, h.keywords ho hr⟩, h.unasked, h.ignored⟩

end ParamList

/-- **A callable fits where another is required exactly if its signature covers the
other's**, and if it returns what is expected or nothing is. -/
theorem fits_callable_iff (own required : ParamList) (result requiredResult : Ty)
    (isFunction requiredIsFunction : Bool) :
    (callable own.types result isFunction).fits
        (callable required.types requiredResult requiredIsFunction) = true ↔
      own.Covers required ∧
        (requiredResult.head.isSubclassOf .noneType = true ∨
          result.fits requiredResult = true) := by
  rw [← ParamList.paramsFit_iff_covers]
  cases requiredIsFunction <;> simp [fits, head]

end Ty
end SlotTree

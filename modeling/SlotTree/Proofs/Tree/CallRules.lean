import SlotTree.Proofs.Tree.Room
import Mathlib.Data.List.Nodup
import Mathlib.Data.List.TakeWhile

/-!
# The rules of a call

The rules of a call speak of all its arguments at once: how many are passed by position,
which keywords are used, and what each parameter receives.

A `Blank` is a callable to which nothing was passed yet: parameters with distinct names,
each with an empty field of its kind.  For a list of arguments, `Blank.Admits` collects
the rules, and `Blank.received` says what each parameter receives if they are kept:

* the positional parameters at the front take one argument each, in order;
* a rest parameter right behind them takes all the others;
* a keyword-only parameter takes what is passed under its name;
* all other keywords are collected by the first parameter that collects.

The rules can be taken apart at the last argument.  `Blank.target?` is the parameter that
one more argument goes to; what a parameter receives grows by this argument or not at all
(`Blank.received_snoc`), and the rules hold of the longer list if they hold of the shorter
one and the argument is taken (`Blank.admits_snoc`).  This is the form in which they can be
compared with a binding, which sees one argument after the other.
-/

namespace SlotTree

/-! ## Lists of arguments -/

namespace Offer

/-- The argument, if it is passed by position. -/
def positional? : Offer → Option Expr
  | positional value => some value
  | keyword _ _ => none

/-- The name and the argument, if it is passed by keyword. -/
def keyword? : Offer → Option (String × Expr)
  | positional _ => none
  | keyword name value => some (name, value)

end Offer

/-- The arguments that are passed by position. -/
def positionals (args : List Offer) : List Expr := args.filterMap Offer.positional?

/-- The arguments that are passed by keyword. -/
def keywords (args : List Offer) : List (String × Expr) := args.filterMap Offer.keyword?

section Lists

variable (args : List Offer) (x : Expr) (k : String)

@[simp] theorem positionals_snoc_positional :
    positionals (args ++ [.positional x]) = positionals args ++ [x] := by
  simp [positionals, Offer.positional?]

@[simp] theorem positionals_snoc_keyword :
    positionals (args ++ [.keyword k x]) = positionals args := by
  simp [positionals, Offer.positional?]

@[simp] theorem keywords_snoc_positional :
    keywords (args ++ [.positional x]) = keywords args := by
  simp [keywords, Offer.keyword?]

@[simp] theorem keywords_snoc_keyword :
    keywords (args ++ [.keyword k x]) = keywords args ++ [(k, x)] := by
  simp [keywords, Offer.keyword?]

theorem keywords_eq_nil_iff {args : List Offer} :
    keywords args = [] ↔ ∀ a ∈ args, a.isKeyword = false := by
  simp only [keywords, List.filterMap_eq_nil_iff]
  refine forall₂_congr fun a _ => ?_
  cases a <;> simp [Offer.keyword?, Offer.isKeyword]

end Lists

/-! ## The rules of a call -/

/-- A callable to which nothing was passed yet. -/
structure Blank where
  params : List Parameter
  fields : Fields
  nodup_names : (params.map Parameter.name).Nodup
  awaits : ∀ p ∈ params, ∃ f, Fields.get? fields p.name = some f ∧ p.Awaits f

namespace Blank

variable (c : Blank)

/-- The number of positional parameters at the front. -/
def lead : Nat := (c.params.takeWhile Parameter.isPositional).length

/-- What a parameter receives from the arguments of a call. -/
def received (args : List Offer) : Parameter → List Expr
  | .positional name =>
    ((positionals args).take c.lead)[c.params.idxOf (.positional name)]?.toList
  | .variadic name =>
    if c.params[c.lead]? = some (.variadic name) then (positionals args).drop c.lead else []
  | .keywordOnly name => ((keywords args).filter fun a => a.1 = name).map Prod.snd
  | .variadicKeyword name =>
    if c.params.findSome? Parameter.collector? = some name then
      ((keywords args).filter fun a => .keywordOnly a.1 ∉ c.params).map Expr.keywordNode
    else []

/-- The rules of a call. -/
structure Admits (args : List Offer) : Prop where
  /-- No argument passed by position follows one passed by keyword. -/
  ordered : args.Pairwise fun a b => a.isKeyword = true → b.isKeyword = true
  /-- There are no more positional arguments than parameters, unless a rest parameter
  takes them. -/
  counted : (positionals args).length ≤ c.lead ∨
    ∃ name, c.params[c.lead]? = some (.variadic name)
  /-- No keyword is used twice. -/
  distinct : ((keywords args).map Prod.fst).Nodup
  /-- Every keyword is a parameter, unless keywords are collected. -/
  known : ∀ a ∈ keywords args, .keywordOnly a.1 ∈ c.params ∨
    ∃ name, .variadicKeyword name ∈ c.params
  /-- Every argument fits the field in which it lands. -/
  fitting : ∀ p ∈ c.params, ∀ f, Fields.get? c.fields p.name = some f →
    ∀ x ∈ c.received args p, x.valueType.fits f.type = true
  /-- Collected keywords pass objects. -/
  collected : ∀ a ∈ keywords args, .keywordOnly a.1 ∉ c.params →
    a.2.valueType.fits (.plain .object) = true

/-! ## Where one more argument goes -/

variable {c} {args : List Offer} {p q : Parameter} {name : String}

theorem eq_of_name (hp : p ∈ c.params) (hq : q ∈ c.params) (h : p.name = q.name) : p = q :=
  List.inj_on_of_nodup_map c.nodup_names hp hq h

theorem nodup_params (c : Blank) : c.params.Nodup := c.nodup_names.of_map

/-- The parameters before `lead` are positional. -/
theorem getElem?_of_lt_lead {i : Nat} (hi : i < c.lead) :
    ∃ name, c.params[i]? = some (.positional name) := by
  have hget : c.params[i]? = some (c.params.takeWhile Parameter.isPositional)[i] := by
    rw [← List.getElem?_eq_getElem hi, ← List.getElem?_append_left hi,
      List.takeWhile_append_dropWhile]
  have hpositional := List.mem_takeWhile_imp (List.getElem_mem hi)
  cases hparam : (c.params.takeWhile Parameter.isPositional)[i] with
  | positional name => exact ⟨name, hparam ▸ hget⟩
  | variadic | keywordOnly | variadicKeyword => simp [hparam, Parameter.isPositional] at hpositional

/-- The parameter at `lead` is not positional. -/
theorem getElem?_lead_ne : c.params[c.lead]? ≠ some (.positional name) := by
  intro h
  have hhead : (c.params.dropWhile Parameter.isPositional).head? = some (.positional name) := by
    rw [← List.takeWhile_append_dropWhile (p := Parameter.isPositional) (l := c.params), lead,
      List.getElem?_append_right (by simp)] at h
    simpa [List.head?_eq_getElem?] using h
  have hnot := List.head?_dropWhile_not Parameter.isPositional c.params
  rw [hhead] at hnot
  cases hnot

/-- The parameter that the next argument goes to, if there is one. -/
def target? (c : Blank) (args : List Offer) : Offer → Option Parameter
  | .positional _ =>
    (c.params[min (positionals args).length c.lead]?).filter Parameter.takesPosition
  | .keyword k _ =>
    if .keywordOnly k ∈ c.params then some (.keywordOnly k)
    else (c.params.findSome? Parameter.collector?).map .variadicKeyword

/-- What lands in a field: a collected argument takes its keyword along. -/
def carried (c : Blank) : Offer → Expr
  | .positional x => x
  | .keyword k x => if .keywordOnly k ∈ c.params then x else Expr.keywordNode (k, x)

theorem mem_of_collector (h : c.params.findSome? Parameter.collector? = some name) :
    .variadicKeyword name ∈ c.params := by
  obtain ⟨p, hp, hcollects⟩ := List.exists_of_findSome?_eq_some h
  cases p <;> simp_all [Parameter.collector?]

theorem mem_of_target? {a : Offer} (h : c.target? args a = some p) : p ∈ c.params := by
  cases a with
  | positional x => exact List.mem_of_getElem? (Option.filter_eq_some_iff.mp h).1
  | keyword k x =>
    rw [target?] at h
    split at h
    · next hmem => exact Option.some.inj h ▸ hmem
    · obtain ⟨name, hcollects, rfl⟩ := Option.map_eq_some_iff.mp h
      exact mem_of_collector hcollects

/-- A positional parameter is the next one exactly if as many arguments have come as
there are parameters before it. -/
theorem target?_eq_positional_iff (hp : .positional name ∈ c.params) (x : Expr) :
    c.target? args (.positional x) = some (.positional name) ↔
      c.params.idxOf (.positional name) = (positionals args).length ∧
        (positionals args).length < c.lead := by
  rw [target?, Option.filter_eq_some_iff]
  constructor
  · rintro ⟨hget, -⟩
    have hlt : (positionals args).length < c.lead := by
      by_contra hle
      rw [Nat.min_eq_right (Nat.not_lt.mp hle)] at hget
      exact getElem?_lead_ne hget
    rw [Nat.min_eq_left hlt.le, ← List.getElem?_idxOf hp] at hget
    have hbound := List.idxOf_lt_length_iff.mpr hp
    exact ⟨(List.getElem?_inj hbound c.nodup_params).mp hget.symm, hlt⟩
  · rintro ⟨hidx, hlt⟩
    rw [Nat.min_eq_left hlt.le, ← hidx]
    exact ⟨List.getElem?_idxOf hp, rfl⟩

/-- The rest parameter is the next one exactly if it stands behind the positional ones
and these are all filled. -/
theorem target?_eq_variadic_iff (x : Expr) :
    c.target? args (.positional x) = some (.variadic name) ↔
      c.params[c.lead]? = some (.variadic name) ∧ c.lead ≤ (positionals args).length := by
  rw [target?, Option.filter_eq_some_iff]
  rcases Nat.lt_or_ge (positionals args).length c.lead with hlt | hge
  · obtain ⟨other, hother⟩ := getElem?_of_lt_lead hlt
    simp [Nat.min_eq_left hlt.le, hother, hlt]
  · simp [hge, Parameter.takesPosition]

/-- A keyword goes to the parameter of its name, and otherwise to the collector. -/
theorem target?_keyword_eq_some_iff {k : String} {x : Expr} :
    c.target? args (.keyword k x) = some p ↔
      (.keywordOnly k ∈ c.params ∧ p = .keywordOnly k) ∨
        (.keywordOnly k ∉ c.params ∧ ∃ name,
          c.params.findSome? Parameter.collector? = some name ∧ p = .variadicKeyword name) := by
  rw [target?]
  split
  · next hmem => simp [hmem, eq_comm]
  · next hmem =>
    rw [Option.map_eq_some_iff]
    simp [hmem, eq_comm]

/-- What a parameter receives grows by the argument that goes to it. -/
theorem received_snoc (args : List Offer) (a : Offer) (hp : p ∈ c.params) :
    c.received (args ++ [a]) p =
      c.received args p ++ if c.target? args a = some p then [c.carried a] else [] := by
  cases a with
  | positional x =>
    cases p with
    | positional name =>
      simp only [received, positionals_snoc_positional, target?_eq_positional_iff hp, carried]
      rw [List.getElem?_take, List.getElem?_take, List.getElem?_append]
      rcases Nat.lt_trichotomy (c.params.idxOf (.positional name)) (positionals args).length
        with hlt | heq | hgt
      · simp [hlt, hlt.ne]
      · by_cases hlead : (positionals args).length < c.lead <;> simp [heq, hlead]
      · simp [hgt.ne', Nat.not_lt.mpr hgt.le]
        omega
    | variadic name =>
      simp only [received, positionals_snoc_positional, target?_eq_variadic_iff, carried,
        List.drop_append]
      by_cases hvariadic : c.params[c.lead]? = some (.variadic name)
      · by_cases hfull : c.lead ≤ (positionals args).length
        · simp [hvariadic, hfull]
        · simp [hvariadic, hfull]
          omega
      · simp [hvariadic]
    | keywordOnly name => simp [received, target?, Parameter.takesPosition]
    | variadicKeyword name => simp [received, target?, Parameter.takesPosition]
  | keyword k x =>
    cases p with
    | positional name => simp [received, target?_keyword_eq_some_iff]
    | variadic name => simp [received, target?_keyword_eq_some_iff]
    | keywordOnly name =>
      simp only [received, keywords_snoc_keyword, List.filter_append, List.map_append,
        target?_keyword_eq_some_iff, carried]
      by_cases hname : k = name
      · subst hname
        simp [hp]
      · simp [hname, Ne.symm hname]
    | variadicKeyword name =>
      simp only [received, keywords_snoc_keyword, List.filter_append, List.map_append,
        target?_keyword_eq_some_iff, carried]
      by_cases hmem : .keywordOnly k ∈ c.params
      · simp [hmem]
      · by_cases hcollects : c.params.findSome? Parameter.collector? = some name
        · simp [hmem, hcollects]
        · simp [hmem, hcollects]

/-! ## The rules for the last argument -/

/-- When one more argument is taken. -/
structure Takes (c : Blank) (args : List Offer) (a : Offer) : Prop where
  ordered : a.isKeyword = false → keywords args = []
  distinct : ∀ passed, a.keyword? = some passed → passed.1 ∉ (keywords args).map Prod.fst
  lands : ∃ p, c.target? args a = some p
  fitting : ∀ p f, c.target? args a = some p → Fields.get? c.fields p.name = some f →
    (c.carried a).valueType.fits f.type = true
  collected : ∀ passed, a.keyword? = some passed → .keywordOnly passed.1 ∉ c.params →
    passed.2.valueType.fits (.plain .object) = true

theorem exists_target?_positional_iff (x : Expr) :
    (∃ p, c.target? args (.positional x) = some p) ↔
      (positionals args).length < c.lead ∨
        ∃ name, c.params[c.lead]? = some (.variadic name) := by
  constructor
  · rintro ⟨p, htarget⟩
    have hp := mem_of_target? htarget
    cases p with
    | positional name => exact Or.inl ((target?_eq_positional_iff hp x).mp htarget).2
    | variadic name => exact Or.inr ⟨name, ((target?_eq_variadic_iff x).mp htarget).1⟩
    | keywordOnly | variadicKeyword => cases (Option.filter_eq_some_iff.mp htarget).2
  · intro h
    rcases Nat.lt_or_ge (positionals args).length c.lead with hlt | hge
    · obtain ⟨name, hname⟩ := getElem?_of_lt_lead hlt
      exact ⟨.positional name, by simp [target?, Nat.min_eq_left hlt.le, hname,
        Parameter.takesPosition]⟩
    · obtain ⟨name, hname⟩ := h.resolve_left (Nat.not_lt.mpr hge)
      exact ⟨.variadic name, (target?_eq_variadic_iff x).mpr ⟨hname, hge⟩⟩

theorem exists_target?_keyword_iff (k : String) (x : Expr) :
    (∃ p, c.target? args (.keyword k x) = some p) ↔
      .keywordOnly k ∈ c.params ∨ ∃ name, .variadicKeyword name ∈ c.params := by
  have hcollects : (∃ name, .variadicKeyword name ∈ c.params) ↔
      ∃ name, c.params.findSome? Parameter.collector? = some name := by
    constructor
    · rintro ⟨name, hname⟩
      rw [← Option.isSome_iff_exists, List.findSome?_isSome_iff]
      exact ⟨_, hname, rfl⟩
    · rintro ⟨name, hname⟩
      exact ⟨name, mem_of_collector hname⟩
  by_cases hmem : .keywordOnly k ∈ c.params
  · simp [target?_keyword_eq_some_iff, hmem]
  · simp [target?_keyword_eq_some_iff, hmem, hcollects]

theorem ordered_snoc (args : List Offer) (a : Offer) :
    (args ++ [a]).Pairwise (fun a b => a.isKeyword = true → b.isKeyword = true) ↔
      args.Pairwise (fun a b => a.isKeyword = true → b.isKeyword = true) ∧
        (a.isKeyword = false → keywords args = []) := by
  rw [List.pairwise_append, keywords_eq_nil_iff]
  cases hkeyword : a.isKeyword <;> simp [hkeyword]

theorem fitting_snoc (c : Blank) (args : List Offer) (a : Offer) :
    (∀ p ∈ c.params, ∀ f, Fields.get? c.fields p.name = some f →
        ∀ x ∈ c.received (args ++ [a]) p, x.valueType.fits f.type = true) ↔
      (∀ p ∈ c.params, ∀ f, Fields.get? c.fields p.name = some f →
        ∀ x ∈ c.received args p, x.valueType.fits f.type = true) ∧
      ∀ p f, c.target? args a = some p → Fields.get? c.fields p.name = some f →
        (c.carried a).valueType.fits f.type = true := by
  constructor
  · intro h
    refine ⟨fun p hp f hf x hx => h p hp f hf x ?_, fun p f htarget hf => ?_⟩
    · rw [received_snoc args a hp]
      exact List.mem_append_left _ hx
    · have hp := mem_of_target? htarget
      refine h p hp f hf _ ?_
      simp [received_snoc args a hp, htarget]
  · rintro ⟨hbefore, hlast⟩ p hp f hf x hx
    rw [received_snoc args a hp, List.mem_append] at hx
    rcases hx with hx | hx
    · exact hbefore p hp f hf x hx
    · split at hx
      · next htarget => exact List.mem_singleton.mp hx ▸ hlast p f htarget hf
      · cases hx

/-- There is a place for every argument exactly if there is one for the last, after the
others have found theirs. -/
theorem lands_snoc (c : Blank) (args : List Offer) (a : Offer) :
    (((positionals (args ++ [a])).length ≤ c.lead ∨
          ∃ name, c.params[c.lead]? = some (.variadic name)) ∧
        ∀ b ∈ keywords (args ++ [a]), .keywordOnly b.1 ∈ c.params ∨
          ∃ name, .variadicKeyword name ∈ c.params) ↔
      (((positionals args).length ≤ c.lead ∨
          ∃ name, c.params[c.lead]? = some (.variadic name)) ∧
        ∀ b ∈ keywords args, .keywordOnly b.1 ∈ c.params ∨
          ∃ name, .variadicKeyword name ∈ c.params) ∧
      ∃ p, c.target? args a = some p := by
  cases a with
  | positional x =>
    rw [exists_target?_positional_iff, positionals_snoc_positional, keywords_snoc_positional,
      List.length_append, List.length_singleton, Nat.succ_le_iff]
    have hle := Nat.le_of_lt (n := (positionals args).length) (m := c.lead)
    tauto
  | keyword k x =>
    rw [exists_target?_keyword_iff, positionals_snoc_keyword, keywords_snoc_keyword]
    simp only [List.mem_append, List.mem_singleton, or_imp, forall_and, forall_eq, and_assoc]

/-- **The rules of a call hold of a list of arguments exactly if they hold of all but the
last, and this one is taken.** -/
theorem admits_snoc (args : List Offer) (a : Offer) :
    c.Admits (args ++ [a]) ↔ c.Admits args ∧ c.Takes args a := by
  have hdistinct : ((keywords (args ++ [a])).map Prod.fst).Nodup ↔
      ((keywords args).map Prod.fst).Nodup ∧
        ∀ passed, a.keyword? = some passed → passed.1 ∉ (keywords args).map Prod.fst := by
    cases a with
    | positional x => simp [Offer.keyword?]
    | keyword k x => simp [Offer.keyword?, List.nodup_append, imp_not_comm]
  have hcollected : (∀ b ∈ keywords (args ++ [a]), .keywordOnly b.1 ∉ c.params →
        b.2.valueType.fits (.plain .object) = true) ↔
      (∀ b ∈ keywords args, .keywordOnly b.1 ∉ c.params →
        b.2.valueType.fits (.plain .object) = true) ∧
        ∀ passed, a.keyword? = some passed → .keywordOnly passed.1 ∉ c.params →
          passed.2.valueType.fits (.plain .object) = true := by
    cases a with
    | positional x => simp [Offer.keyword?]
    | keyword k x =>
      simp only [keywords_snoc_keyword, List.mem_append, List.mem_singleton, or_imp, forall_and,
        forall_eq, Offer.keyword?, Option.some.injEq, forall_eq']
  constructor
  · intro h
    have ⟨ordered, ordered'⟩ := (ordered_snoc args a).mp h.ordered
    have ⟨⟨counted, known⟩, lands⟩ := (lands_snoc c args a).mp ⟨h.counted, h.known⟩
    have ⟨distinct, distinct'⟩ := hdistinct.mp h.distinct
    have ⟨fitting, fitting'⟩ := (fitting_snoc c args a).mp h.fitting
    have ⟨collected, collected'⟩ := hcollected.mp h.collected
    exact ⟨⟨ordered, counted, distinct, known, fitting, collected⟩,
      ⟨ordered', distinct', lands, fitting', collected'⟩⟩
  · rintro ⟨h, ht⟩
    have ⟨counted, known⟩ := (lands_snoc c args a).mpr ⟨⟨h.counted, h.known⟩, ht.lands⟩
    exact
      { ordered := (ordered_snoc args a).mpr ⟨h.ordered, ht.ordered⟩
        counted
        distinct := hdistinct.mpr ⟨h.distinct, ht.distinct⟩
        known
        fitting := (fitting_snoc c args a).mpr ⟨h.fitting, ht.fitting⟩
        collected := hcollected.mpr ⟨h.collected, ht.collected⟩ }

end Blank
end SlotTree

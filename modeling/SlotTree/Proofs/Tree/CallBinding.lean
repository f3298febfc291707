import SlotTree.Proofs.Tree.CallRules

/-!
# Arguments go where a call puts them

A binding takes one argument after the other and keeps a place among the parameters,
while the rules of a call (`Blank.Admits`) look at all its arguments at once.  This file
shows that the two come to the same: a binding takes all the arguments exactly if the
rules are kept, and then every parameter holds what it receives by the rules.

`Blank.Bound` describes the binding after some arguments, field by field.  The step is
`Blank.offer_takes`: a binding in this state takes an argument exactly if the rules say
so, and is then in the state with one argument more.  There is one lemma for each way of
taking it, by position, under the name of a parameter, or collected.

An empty field that takes nothing has to be excluded: a rest field with items of a
literal class refuses every expression, those of that class included
(`literal_rest_refuses`).
-/

namespace SlotTree

/-- Offers arguments one after the other, with the outcome of each. -/
def Binding.offerAll (callee : String) (params : List Parameter) (b : Binding)
    (args : List Offer) : List (Except Fault Unit) × Binding :=
  args.foldl (fun (outcomes, b) a =>
    let (outcome, b) := offer callee params b a
    (outcomes ++ [outcome], b)) ([], b)

theorem Binding.offerAll_snoc (callee : String) (params : List Parameter) (b : Binding)
    (args : List Offer) (a : Offer) :
    offerAll callee params b (args ++ [a]) =
      ((offerAll callee params b args).1 ++ [(offer callee params
          (offerAll callee params b args).2 a).1],
        (offer callee params (offerAll callee params b args).2 a).2) := by
  simp [offerAll]

namespace Blank

/-- What a call leaves: every parameter has in its field what it received, in order, and
nothing else has changed. -/
structure Bound (c : Blank) (args : List Offer) (b : Binding) : Prop where
  field : ∀ p ∈ c.params, ∀ f, Fields.get? c.fields p.name = some f →
    Fields.get? b.fields p.name = some (f.addAll (c.received args p)) ∧
      (f.addAll (c.received args p)).exprs = c.received args p
  other : ∀ name, (∀ p ∈ c.params, p.name ≠ name) →
    Fields.get? b.fields name = Fields.get? c.fields name
  binder : b.binder =
    { next := if keywords args = [] then some (min (positionals args).length c.lead) else none
      invoked := !args.isEmpty }

variable {c : Blank} {args : List Offer} {p : Parameter} {name : String}

/-! ## The binding takes the same arguments -/

section Step

variable {f : Field} {b : Binding} {a : Offer}

/-- The field of a parameter takes an expression that fits as long as it has room. -/
theorem add_received_eq_ok_iff (hawaits : p.Awaits f) (es : List Expr) (e : Expr) :
    ((f.addAll es).add e).1 = .ok () ↔
      (f.addAll es).isFree = true ∧ e.valueType.fits f.type = true := by
  rw [Field.add_eq_ok_iff, Field.type_addAll]
  simp [hawaits.isLiteral_type]

/-- One more argument has landed in its field. -/
theorem Bound.snoc (hb : c.Bound args b) (htarget : c.target? args a = some p)
    (hf : Fields.get? c.fields p.name = some f)
    (hadd : ((f.addAll (c.received args p)).add (c.carried a)).1 = .ok ()) (next : Option Nat)
    (hnext : next = if keywords (args ++ [a]) = [] then
      some (min (positionals (args ++ [a])).length c.lead) else none) :
    c.Bound (args ++ [a]) ⟨⟨next, true⟩, Fields.set b.fields p.name
      ((f.addAll (c.received args p)).add (c.carried a)).2⟩ where
  field q hq g hg := by
    have hp := mem_of_target? htarget
    obtain ⟨hold, hexprs⟩ := hb.field p hp f hf
    rw [received_snoc args a hq]
    by_cases hqp : q = p
    · subst hqp
      obtain rfl : f = g := Option.some.inj (hf.symm.trans hg)
      rw [if_pos htarget, Field.addAll_snoc, Fields.get?_set hold, if_pos rfl]
      exact ⟨rfl, by rw [Field.exprs_add hadd, hexprs]⟩
    · have hname : q.name ≠ p.name := fun h => hqp (eq_of_name hq hp h)
      have hnot : c.target? args a ≠ some q := fun h =>
        hqp (Option.some.inj (h.symm.trans htarget))
      rw [if_neg hnot, List.append_nil, Fields.get?_set hold, if_neg hname]
      exact hb.field q hq g hg
  other name hname := by
    have hp := mem_of_target? htarget
    rw [Fields.get?_set (hb.field p hp f hf).1, if_neg (Ne.symm (hname p hp))]
    exact hb.other name hname
  binder := by simp [hnext]

/-- Once the target is known, the rules for an argument are four tests. -/
theorem takes_iff (htarget : c.target? args a = some p)
    (hf : Fields.get? c.fields p.name = some f) :
    c.Takes args a ↔
      (a.isKeyword = false → keywords args = []) ∧
      (∀ passed, a.keyword? = some passed → passed.1 ∉ (keywords args).map Prod.fst) ∧
      (c.carried a).valueType.fits f.type = true ∧
      ∀ passed, a.keyword? = some passed → .keywordOnly passed.1 ∉ c.params →
        passed.2.valueType.fits (.plain .object) = true := by
  constructor
  · exact fun h => ⟨h.ordered, h.distinct, h.fitting p f htarget hf, h.collected⟩
  · rintro ⟨ordered, distinct, fits, collected⟩
    refine ⟨ordered, distinct, ⟨p, htarget⟩, fun q g hq hg => ?_, collected⟩
    obtain rfl : p = q := Option.some.inj (htarget.symm.trans hq)
    obtain rfl : f = g := Option.some.inj (hf.symm.trans hg)
    exact fits

/-- The parameter that awaits a positional argument has room for it. -/
theorem isFree_of_target?_positional {x : Expr} (hawaits : p.Awaits f)
    (htarget : c.target? args (.positional x) = some p) :
    (f.addAll (c.received args p)).isFree = true := by
  have hp := mem_of_target? htarget
  cases p with
  | positional name =>
    obtain ⟨hidx, hlt⟩ := (target?_eq_positional_iff hp x).mp htarget
    have hnone : c.received args (.positional name) = [] := by
      simp [received, hidx, hlt.le]
    rw [hnone]
    exact hawaits.isFree
  | variadic name => exact (hawaits.suits.addAll _).isFree
  | keywordOnly | variadicKeyword => cases (Option.filter_eq_some_iff.mp htarget).2

/-- The slot of a keyword has room as long as the keyword has not been used. -/
theorem isFree_received_keywordOnly_iff {k : String} (hawaits : Parameter.Awaits (.keywordOnly k) f)
    (hexprs : (f.addAll (c.received args (.keywordOnly k))).exprs =
      c.received args (.keywordOnly k)) :
    (f.addAll (c.received args (.keywordOnly k))).isFree = true ↔
      k ∉ (keywords args).map Prod.fst := by
  have hunused : c.received args (.keywordOnly k) = [] ↔ k ∉ (keywords args).map Prod.fst := by
    simp only [received, List.map_eq_nil_iff, List.filter_eq_nil_iff, List.mem_map,
      decide_eq_true_eq, not_exists, not_and]
  rw [← hunused]
  constructor
  · intro hfree
    have hsuits := hawaits.suits.addAll (c.received args (.keywordOnly k))
    rw [← hexprs]
    exact hsuits.exprs_of_isFree hfree
  · intro hnone
    rw [hnone]
    exact hawaits.isFree

/-- A keyword that is no parameter was used before exactly if it was collected. -/
theorem unused_received_variadicKeyword_iff {k : String} (hmem : .keywordOnly k ∉ c.params)
    (hcollects : c.params.findSome? Parameter.collector? = some name) :
    (∀ e ∈ c.received args (.variadicKeyword name), e.keywordName? ≠ some k) ↔
      k ∉ (keywords args).map Prod.fst := by
  have hname (passed : String × Expr) : (Expr.keywordNode passed).keywordName? = some passed.1 :=
    rfl
  rw [received, if_pos hcollects]
  constructor
  · intro h hused
    obtain ⟨passed, hpassed, rfl⟩ := List.mem_map.mp hused
    exact h _ (List.mem_map_of_mem (List.mem_filter.mpr ⟨hpassed, by simpa using hmem⟩)) (hname _)
  · intro hunused e he hk
    obtain ⟨passed, hpassed, rfl⟩ := List.mem_map.mp he
    have hkey : passed.1 = k := Option.some.inj ((hname passed).symm.trans hk)
    exact hunused (List.mem_map.mpr ⟨passed, (List.mem_filter.mp hpassed).1, hkey⟩)

/-- An argument for which there is no parameter is refused. -/
theorem offer_ne_ok_of_target? (callee : String) (hb : c.Bound args b)
    (htarget : c.target? args a = none) : (Binding.offer callee c.params b a).1 ≠ .ok () := by
  cases a with
  | positional x =>
    by_cases hkeywords : keywords args = []
    · have hnext : b.binder.next = some (min (positionals args).length c.lead) := by
        rw [hb.binder, if_pos hkeywords]
      refine Binding.positional_ne_ok callee x hnext fun p hp => ?_
      simpa using Option.filter_eq_none_iff.mp htarget p hp
    · have hnext : b.binder.next = none := by rw [hb.binder, if_neg hkeywords]
      simp [Binding.offer, Binding.positional_closed hnext]
  | keyword k x =>
    rw [target?] at htarget
    split at htarget
    · cases htarget
    · next hmem =>
      have hnone : c.params.any (Parameter.takesKeyword k) = false := by
        simpa [← Binding.any_takesKeyword_iff] using hmem
      simp [Binding.offer, Binding.keyword, hnone, Option.map_eq_none_iff.mp htarget]

/-- The binding counts the positional arguments up to the rest parameter. -/
theorem place_of_target?_positional {x : Expr}
    (htarget : c.target? args (.positional x) = some p) :
    (if p.isPositional then min (positionals args).length c.lead + 1
      else min (positionals args).length c.lead) = min ((positionals args).length + 1) c.lead := by
  have hp := mem_of_target? htarget
  cases p with
  | positional name =>
    have hlt := ((target?_eq_positional_iff hp x).mp htarget).2
    simp only [Parameter.isPositional, if_true]
    omega
  | variadic name =>
    have hge := ((target?_eq_variadic_iff x).mp htarget).2
    simp only [Parameter.isPositional, Bool.false_eq_true, if_false]
    omega
  | keywordOnly | variadicKeyword => cases (Option.filter_eq_some_iff.mp htarget).2

theorem positional_takes (callee : String) {x : Expr} (hb : c.Bound args b)
    (htarget : c.target? args (.positional x) = some p)
    (hf : Fields.get? c.fields p.name = some f) (hawaits : p.Awaits f) :
    ((Binding.positional callee c.params b x).1 = .ok () ↔ c.Takes args (.positional x)) ∧
      (c.Takes args (.positional x) →
        c.Bound (args ++ [.positional x]) (Binding.positional callee c.params b x).2) := by
  have hp := mem_of_target? htarget
  obtain ⟨hparam, htakes⟩ := Option.filter_eq_some_iff.mp htarget
  by_cases hkeywords : keywords args = []
  · have hnext : b.binder.next = some (min (positionals args).length c.lead) := by
      rw [hb.binder, if_pos hkeywords]
    obtain ⟨hok, hstate⟩ := Binding.positional_at callee x hnext hparam
      (hb.field p hp f hf).1 htakes (hawaits.suits.addAll _)
    have hadd : ((f.addAll (c.received args p)).add x).1 = .ok () ↔
        c.Takes args (.positional x) := by
      rw [add_received_eq_ok_iff hawaits, takes_iff htarget hf]
      simp [isFree_of_target?_positional hawaits htarget, hkeywords, Offer.keyword?, carried]
    refine ⟨hok.trans hadd, fun hrules => ?_⟩
    have hadded := hadd.mpr hrules
    rw [hstate hadded, place_of_target?_positional htarget]
    exact hb.snoc htarget hf hadded _ (by simp [hkeywords])
  · have hnext : b.binder.next = none := by rw [hb.binder, if_neg hkeywords]
    rw [takes_iff htarget hf]
    simp [Binding.positional_closed hnext, hkeywords, Offer.isKeyword]

/-- A keyword that is a parameter. -/
theorem keywordOnly_takes (callee : String) {k : String} {x : Expr} (hb : c.Bound args b)
    (hmem : .keywordOnly k ∈ c.params) (hf : Fields.get? c.fields k = some f)
    (hawaits : Parameter.Awaits (.keywordOnly k) f) :
    ((Binding.keyword callee c.params b k x).1 = .ok () ↔ c.Takes args (.keyword k x)) ∧
      (c.Takes args (.keyword k x) →
        c.Bound (args ++ [.keyword k x]) (Binding.keyword callee c.params b k x).2) := by
  have htarget : c.target? args (.keyword k x) = some (.keywordOnly k) :=
    target?_keyword_eq_some_iff.mpr (Or.inl ⟨hmem, rfl⟩)
  have hcarried : c.carried (.keyword k x) = x := if_pos hmem
  obtain ⟨hfield, hexprs⟩ := hb.field _ hmem f hf
  have hadd : ((f.addAll (c.received args (.keywordOnly k))).add x).1 = .ok () ↔
      c.Takes args (.keyword k x) := by
    rw [add_received_eq_ok_iff hawaits, isFree_received_keywordOnly_iff hawaits hexprs,
      takes_iff htarget hf, hcarried]
    simp [Offer.keyword?, Offer.isKeyword, hmem]
  obtain ⟨s, hs⟩ := (hawaits.suits.addAll (c.received args (.keywordOnly k))).exists_slot
  rw [hs] at hfield
  obtain ⟨hok, hstate⟩ := Binding.keyword_at_slot callee x hmem hfield
  have hadd' : (s.add x).1 = .ok () ↔ c.Takes args (.keyword k x) := by
    rw [← hadd, hs]
    rfl
  refine ⟨hok.trans hadd', fun hrules => ?_⟩
  rw [hstate (hadd'.mpr hrules)]
  have hsnoc := hb.snoc htarget hf (hcarried.symm ▸ hadd.mpr hrules) none (by simp)
  rwa [hcarried, hs] at hsnoc

/-- A keyword that is collected. -/
theorem collected_takes (callee : String) {k name : String} {x : Expr} (hb : c.Bound args b)
    (hmem : .keywordOnly k ∉ c.params)
    (hcollects : c.params.findSome? Parameter.collector? = some name)
    (hf : Fields.get? c.fields name = some f)
    (hawaits : Parameter.Awaits (.variadicKeyword name) f) :
    ((Binding.keyword callee c.params b k x).1 = .ok () ↔ c.Takes args (.keyword k x)) ∧
      (c.Takes args (.keyword k x) →
        c.Bound (args ++ [.keyword k x]) (Binding.keyword callee c.params b k x).2) := by
  have htarget : c.target? args (.keyword k x) = some (.variadicKeyword name) :=
    target?_keyword_eq_some_iff.mpr (Or.inr ⟨hmem, name, hcollects, rfl⟩)
  have hcarried : c.carried (.keyword k x) = Expr.keywordNode (k, x) := if_neg hmem
  obtain ⟨hfield, hexprs⟩ := hb.field _ (mem_of_collector hcollects) f hf
  have htype : f.type = .plain .keyword := hawaits.type_eq_keyword
  obtain ⟨v, hv⟩ := (hawaits.suits.addAll (c.received args (.variadicKeyword name))).exists_variadic
  have hitem : v.itemType = .plain .keyword := by
    rw [← htype, ← Field.type_addAll f (c.received args (.variadicKeyword name)), hv]
    rfl
  have hadded : ((f.addAll (c.received args (.variadicKeyword name))).add
      (c.carried (.keyword k x))).1 = .ok () := by
    rw [add_received_eq_ok_iff hawaits, htype, hcarried, hv]
    exact ⟨rfl, rfl⟩
  have hfresh : (∀ e ∈ v.exprs, e.keywordName? ≠ some k) ↔ k ∉ (keywords args).map Prod.fst := by
    have hvexprs : v.exprs = c.received args (.variadicKeyword name) := by
      rw [← hexprs, hv]
      rfl
    rw [hvexprs]
    exact unused_received_variadicKeyword_iff hmem hcollects
  rw [hv] at hfield
  obtain ⟨hok, hstate⟩ := Binding.keyword_at_collector callee x hmem hcollects hfield
    hitem
  have hrules : c.Takes args (.keyword k x) ↔
      (∀ e ∈ v.exprs, e.keywordName? ≠ some k) ∧ x.valueType.fits (.plain .object) = true := by
    rw [takes_iff htarget hf, hfresh, htype, hcarried]
    have hnode : (Expr.keywordNode (k, x)).valueType.fits (.plain .keyword) = true := rfl
    simp [Offer.keyword?, Offer.isKeyword, hmem, hnode]
  rw [hok, hrules]
  refine ⟨Iff.rfl, fun htaken => ?_⟩
  rw [hstate (hok.mpr htaken)]
  have hsnoc := hb.snoc htarget hf hadded none (by simp)
  rwa [hcarried, hv] at hsnoc

/-- **The binding takes an argument exactly if the rules of a call say so**, and then the
argument lands where they say. -/
theorem offer_takes (callee : String) (hb : c.Bound args b) (a : Offer) :
    ((Binding.offer callee c.params b a).1 = .ok () ↔ c.Takes args a) ∧
      (c.Takes args a → c.Bound (args ++ [a]) (Binding.offer callee c.params b a).2) := by
  cases htarget : c.target? args a with
  | none =>
    have hrules : ¬ c.Takes args a := fun h => by simpa [htarget] using h.lands
    exact ⟨iff_of_false (offer_ne_ok_of_target? callee hb htarget) hrules,
      fun h => absurd h hrules⟩
  | some p =>
    obtain ⟨f, hf, hawaits⟩ := c.awaits p (mem_of_target? htarget)
    cases a with
    | positional x => exact positional_takes callee hb htarget hf hawaits
    | keyword k x =>
      rcases target?_keyword_eq_some_iff.mp htarget with ⟨hmem, rfl⟩ | ⟨hmem, name, hcollects, rfl⟩
      · exact keywordOnly_takes callee hb hmem hf hawaits
      · exact collected_takes callee hb hmem hcollects hf hawaits

end Step

/-! ## A whole call -/

/-- The binding before the first argument. -/
def start (c : Blank) : Binding := ⟨{}, c.fields⟩

@[simp] theorem received_nil (c : Blank) (p : Parameter) : c.received [] p = [] := by
  cases p <;> simp [received, positionals, keywords]

theorem admits_nil (c : Blank) : c.Admits [] where
  ordered := .nil
  counted := Or.inl (Nat.zero_le _)
  distinct := List.nodup_nil
  known := by simp [keywords]
  fitting p _ f _ x hx := by simp at hx
  collected := by simp [keywords]

theorem bound_nil (c : Blank) : c.Bound [] c.start where
  field p hp f hf := by
    obtain ⟨g, hg, hawaits⟩ := c.awaits p hp
    obtain rfl : g = f := Option.some.inj (hg.symm.trans hf)
    rw [received_nil, Field.addAll_nil]
    exact ⟨hf, hawaits.exprs⟩
  other _ _ := rfl
  binder := by simp [start, keywords, positionals]

/-- **Arguments are bound one after the other exactly as the rules of a call say.**  All
of them are taken if and only if the rules are kept, and then every parameter holds what
it received. -/
theorem offerAll_eq_ok_iff (c : Blank) (callee : String) (args : List Offer) :
    ((∀ outcome ∈ (Binding.offerAll callee c.params c.start args).1, outcome = .ok ()) ↔
        c.Admits args) ∧
      (c.Admits args → c.Bound args (Binding.offerAll callee c.params c.start args).2) := by
  induction args using List.reverseRecOn with
  | nil => exact ⟨iff_of_true (by simp [Binding.offerAll]) c.admits_nil, fun _ => c.bound_nil⟩
  | append_singleton args a ih =>
    obtain ⟨hiff, hbound⟩ := ih
    rw [Binding.offerAll_snoc, admits_snoc, List.forall_mem_append, hiff]
    constructor
    · refine and_congr_right fun hadmits => ?_
      rw [List.forall_mem_singleton]
      exact (offer_takes callee (hbound hadmits) a).1
    · rintro ⟨hadmits, htakes⟩
      exact (offer_takes callee (hbound hadmits) a).2 htakes

/-- `print` before the first argument. -/
def print : Blank where
  params := Expr.printParameters
  fields := (Expr.emptyPrint .detached).fields
  nodup_names := by decide
  awaits := by
    simp only [Expr.printParameters, List.mem_cons, List.not_mem_nil, or_false]
    rintro p (rfl | rfl | rfl | rfl | rfl) <;> exact ⟨_, rfl, rfl, rfl⟩

/-- Two objects and a separator are passed to `print`. -/
theorem offerAll_eq_ok_iff_print :
    let args : List Offer := [.positional (.ofLiteral (.int 1) .detached),
      .positional (.ofLiteral (.int 2) .detached), .keyword "sep" (.ofLiteral (.str "-") .detached)]
    print.Admits args ∧
      Fields.get? (Binding.offerAll "print" print.params print.start args).2.fields "objects" =
        some (.variadic ⟨.plain .object, [.holding (.plain .object) (.ofLiteral (.int 1) .detached),
          .holding (.plain .object) (.ofLiteral (.int 2) .detached)]⟩) := by
  intro args
  have houtcomes : (Binding.offerAll "print" print.params print.start args).1 =
      [.ok (), .ok (), .ok ()] := rfl
  have hadmits : print.Admits args :=
    (offerAll_eq_ok_iff print "print" args).1.mp (by simp [houtcomes])
  refine ⟨hadmits, ?_⟩
  exact (((offerAll_eq_ok_iff print "print" args).2 hadmits).field (.variadic "objects")
    List.mem_cons_self _ rfl).1

end Blank

/-- A rest field with items of a literal class is empty and awaits nothing: it refuses
even a literal of this class. -/
theorem literal_rest_refuses :
    let one := Expr.ofLiteral (.int 1) .detached
    let fields : Fields := [("r", .variadic (.ofType (.plain .literalInt)))]
    one.valueType.fits (.plain .literalInt) = true ∧
      (Binding.offerAll "f" [.variadic "r"] ⟨{}, fields⟩ [.positional one]).1 =
        [.error ⟨.literalSlot "Literal[int]", .detached⟩] :=
  ⟨rfl, rfl⟩

end SlotTree

import SlotTree.Proofs.Tree.Fill
import SlotTree.Reading.Expression

/-!
# Callables with their arguments

Binding arguments to `print` or to a call leaves one of two forms.  `Expr.printWith` is
`print` with its objects and the options that were passed, `Expr.callWith` a call with its
callee, its positional arguments and its keywords.  In both, positional arguments may
follow until the first keyword, and the binder says no more than that.

What a binder does with one argument is said once for each kind of parameter
(`Binding.positional_variadic`, `Binding.keyword_slot`, `Binding.keyword_collected`).  From
that, one step of binding is an equation between such forms (`addArgument?_printWith` and
its three siblings), and the arguments of a whole call follow by induction in both
directions: binding in the order in which arguments are written gives the form with these
arguments, and whatever order they are bound in, a form comes out that holds nothing else.
-/

namespace SlotTree

open Reading (Argument bindArguments)

/-- A slot of a type that may hold an expression. -/
def Slot.maybe (t : Ty) : Option Expr → Slot
  | some e => .holding t e
  | none => .ofType t

@[simp] theorem Slot.maybe_some (t : Ty) (e : Expr) : Slot.maybe t (some e) = .holding t e := rfl

@[simp] theorem Slot.maybe_none (t : Ty) : Slot.maybe t none = .ofType t := rfl

@[simp] theorem Slot.isOccupied_ofType (t : Ty) : (Slot.ofType t).isOccupied = false := rfl

@[simp] theorem Slot.expr?_maybe (t : Ty) (e : Option Expr) : (Slot.maybe t e).expr? = e := by
  cases e <;> rfl

/-- The keywords of `print`. -/
inductive PrintKey where
  | sep | ending | file | flush
  deriving DecidableEq, Repr

namespace PrintKey

/-- The keyword as it is written. -/
def name : PrintKey → String
  | sep => "sep"
  | ending => "end"
  | file => "file"
  | flush => "flush"

/-- The type of the value that is passed under the keyword. -/
def type : PrintKey → Ty
  | sep | ending => .plain .str
  | file => .plain .object
  | flush => .plain .bool

/-- The keywords in the order in which they are written. -/
def all : List PrintKey := [sep, ending, file, flush]

theorem mem_all (k : PrintKey) : k ∈ all := by cases k <;> decide

theorem isLiteral_type (k : PrintKey) : k.type.head.isLiteral = false := by cases k <;> rfl

end PrintKey

/-- What is passed to `print` under its keywords. -/
abbrev PrintOptions : Type := PrintKey → Option Expr

/-- No options. -/
def PrintOptions.none : PrintOptions := fun _ => Option.none

/-- One more option. -/
def PrintOptions.set (options : PrintOptions) (k : PrintKey) (e : Expr) : PrintOptions :=
  fun k' => if k' = k then some e else options k'

theorem PrintOptions.set_apply (options : PrintOptions) (k k' : PrintKey) (e : Expr) :
    options.set k e k' = if k' = k then some e else options k' := rfl

/-- Whether any option was passed. -/
def PrintOptions.any (options : PrintOptions) : Bool := PrintKey.all.any fun k => (options k).isSome

/-- The binder after arguments, of which the last was passed by keyword or not. -/
def Binder.after (keyed invoked : Bool) : Binder :=
  { next := if keyed then none else some 0, invoked := invoked }

namespace Expr

/-- `print` with its arguments. -/
def printWith (objects : List Expr) (options : PrintOptions) (invoked : Bool) (span : Span) :
    Expr :=
  .print ⟨.plain .object, objects.map (.holding (.plain .object))⟩
    (.maybe PrintKey.sep.type (options .sep)) (.maybe PrintKey.ending.type (options .ending))
    (.maybe PrintKey.file.type (options .file)) (.maybe PrintKey.flush.type (options .flush))
    (.after options.any invoked) span

/-- The node of a keyword argument. -/
def keywordNode (passed : String × Expr) : Expr :=
  .keyword (.ofLiteral (.str passed.1)) (.holding (.plain .object) passed.2) passed.2.span

/-- A call with its arguments. -/
def callWith (func : Expr) (args : List Expr) (keywords : List (String × Expr)) (invoked : Bool)
    (span : Span) : Expr :=
  .call (.holding (.plain .object) func)
    ⟨.plain .object, args.map (.holding (.plain .object))⟩
    ⟨.plain .keyword, keywords.map fun passed => .holding (.plain .keyword) (keywordNode passed)⟩
    (.after (!keywords.isEmpty) invoked) span

theorem emptyPrint_eq (span : Span) : emptyPrint span = printWith [] .none false span := rfl

end Expr

/-! ## One step of a binding -/

namespace Binding

/-- After a keyword no positional argument is taken. -/
theorem positional_closed {callee : String} {params : List Parameter} {b : Binding} {e : Expr}
    (h : b.binder.next = none) :
    positional callee params b e = (.error (.detached .positionalAfterKeyword), b.offered) := by
  have hnext : b.offered.binder.next = none := h
  rw [positional]
  simp only [hnext]

/-- A rest field takes the positional arguments that fit. -/
theorem positional_variadic {callee name : String} {params : List Parameter} {b : Binding}
    {e : Expr} {index : Nat} {t : Ty} {slots : List Slot} (hnext : b.binder.next = some index)
    (hparam : params[index]? = some (.variadic name))
    (hfield : Fields.get? b.fields name = some (.variadic ⟨t, slots⟩))
    (ht : t.head.isLiteral = false) :
    positional callee params b e =
      if e.valueType.fits t then
        (.ok (), { b.offered with
          fields := Fields.set b.fields name (.variadic ⟨t, slots ++ [.holding t e]⟩) })
      else (.error (((Slot.ofType t).mismatch e).asArgumentFault name), b.offered) := by
  have hnext' : b.offered.binder.next = some index := hnext
  have hfield' : Fields.get? b.offered.fields (Parameter.variadic name).name =
      some (.variadic ⟨t, slots⟩) := hfield
  rw [positional]
  simp only [hnext', hparam, hfield', Variadic.push, Slot.add_ofType ht]
  cases e.valueType.fits t <;> rfl

/-- The binding after a keyword has been offered. -/
def keyed (b : Binding) : Binding :=
  { b.offered with binder := { b.offered.binder with next := none } }

/-- A keyword-only parameter takes one argument that fits. -/
theorem keyword_slot {callee name : String} {params : List Parameter} {b : Binding} {e : Expr}
    {t : Ty} {held : Option Expr} (hparam : params.any (Parameter.takesKeyword name) = true)
    (hfield : Fields.get? b.fields name = some (.slot (.maybe t held)))
    (ht : t.head.isLiteral = false) :
    keyword callee params b name e =
      if held.isSome then (.error (.detached (.repeatedKeyword name)), b.keyed)
      else if e.valueType.fits t then
        (.ok (), { b.keyed with fields := Fields.set b.fields name (.slot (.holding t e)) })
      else (.error (((Slot.ofType t).mismatch e).asArgumentFault name), b.keyed) := by
  have hfield' : Fields.get? b.offered.fields name = some (.slot (.maybe t held)) := hfield
  rw [keyword]
  simp only [hparam, if_true, hfield']
  cases held with
  | some v => rfl
  | none =>
    simp only [Slot.maybe_none, Slot.isOccupied_ofType, Slot.add_ofType ht]
    cases e.valueType.fits t <;> rfl

/-- A collector takes every keyword once, if the value is an object. -/
theorem keyword_collected {callee name field : String} {params : List Parameter} {b : Binding}
    {e : Expr} {slots : List Slot} (hparam : params.any (Parameter.takesKeyword name) = false)
    (hcollector : params.findSome? Parameter.collector? = some field)
    (hfield : Fields.get? b.fields field = some (.variadic ⟨.plain .keyword, slots⟩)) :
    keyword callee params b name e =
      if (slots.filterMap Slot.expr?).any fun x => x.keywordName? == some name then
        (.error (.detached (.repeatedKeyword name)), b.keyed)
      else if e.valueType.fits (.plain .object) then
        (.ok (), { b.keyed with
          fields := Fields.set b.fields field (.variadic ⟨.plain .keyword,
            slots ++ [.holding (.plain .keyword) (Expr.keywordNode (name, e))]⟩) })
      else (.error (Slot.object.mismatch e), b.keyed) := by
  have hfield' : Fields.get? b.offered.fields field = some (.variadic ⟨.plain .keyword, slots⟩) :=
    hfield
  rw [keyword]
  simp only [hparam, Bool.false_eq_true, if_false, hcollector, hfield', Variadic.exprs,
    Expr.keywordOf, Slot.add_object]
  split
  · rfl
  · cases e.valueType.fits (.plain .object) <;> rfl

end Binding

namespace Expr

/-! ## One argument -/

/-- The parameters of `print`. -/
def printParameters : List Parameter :=
  [.variadic "objects", .keywordOnly "sep", .keywordOnly "end", .keywordOnly "file",
    .keywordOnly "flush"]

/-- The parameters of a call. -/
def callParameters : List Parameter := [.variadic "args", .variadicKeyword "keywords"]

/-- A step that depends on whether the argument fits is taken exactly if it does. -/
theorem withBinding_ite_eq_ok_iff {callee bound : Expr} {fits : Bool} {b b' : Binding}
    {fault : Fault} {u : Unit} :
    some (callee.withBinding (if fits then (.ok (), b) else (.error fault, b'))) =
        some (.ok u, bound) ↔
      fits = true ∧ bound = (callee.setFields b.fields).setBinder b.binder := by
  cases fits <;> simp [withBinding, eq_comm]

theorem addArgument?_printWith (objects : List Expr) (options : PrintOptions) (invoked : Bool)
    (span : Span) (e bound : Expr) (u : Unit) :
    (printWith objects options invoked span).addArgument? e = some (.ok u, bound) ↔
      options.any = false ∧ e.valueType.fits (.plain .object) = true ∧
        bound = printWith (objects ++ [e]) options true span := by
  -- of its five fields `print` shows the binder the objects only
  have hstep : (printWith objects options invoked span).addArgument? e =
      some ((printWith objects options invoked span).withBinding
        (Binding.positional "print" printParameters ⟨.after options.any invoked,
          [("objects", .variadic ⟨.plain .object, objects.map (.holding (.plain .object))⟩)]⟩ e)) :=
    rfl
  cases hany : options.any with
  | true =>
    have hnext : (Binder.after options.any invoked).next = none := by
      rw [hany]
      rfl
    rw [hstep, Binding.positional_closed hnext]
    simp [withBinding]
  | false =>
    have hnext : (Binder.after options.any invoked).next = some 0 := by
      rw [hany]
      rfl
    rw [hstep, Binding.positional_variadic hnext rfl rfl rfl, withBinding_ite_eq_ok_iff,
      printWith.eq_1 (objects ++ [e]), List.map_append]
    exact (and_iff_right rfl).symm

theorem addKeyword?_printWith (objects : List Expr) (options : PrintOptions) (invoked : Bool)
    (span : Span) (k : PrintKey) (e bound : Expr) (u : Unit) :
    (printWith objects options invoked span).addKeyword? k.name e = some (.ok u, bound) ↔
      options k = none ∧ e.valueType.fits k.type = true ∧
        bound = printWith objects (options.set k e) true span := by
  have hstep : (printWith objects options invoked span).addKeyword? k.name e =
      some ((printWith objects options invoked span).withBinding
        (Binding.keyword "print" printParameters ⟨.after options.any invoked,
          PrintKey.all.map fun k => (k.name, .slot (.maybe k.type (options k)))⟩ k.name e)) :=
    rfl
  have hparam : printParameters.any (Parameter.takesKeyword k.name) = true := by
    cases k <;> decide
  have hfield : Fields.get?
      (PrintKey.all.map fun k => (k.name, Field.slot (.maybe k.type (options k)))) k.name =
        some (.slot (.maybe k.type (options k))) := by
    cases k <;> rfl
  have hany : (options.set k e).any = true := by
    cases k <;> simp [PrintOptions.any, PrintKey.all, PrintOptions.set]
  rw [hstep, Binding.keyword_slot hparam hfield k.isLiteral_type]
  cases hk : options k with
  | some v => simp [withBinding]
  | none =>
    rw [if_neg (by simp), withBinding_ite_eq_ok_iff, printWith.eq_1 objects (options.set k e), hany]
    refine Iff.trans ?_ (and_iff_right rfl).symm
    cases k <;> rfl

/-- `print` takes no other keywords than its own. -/
theorem exists_name_of_addKeyword?_printWith {objects : List Expr} {options : PrintOptions}
    {invoked : Bool} {span : Span} {keyword : String} {e bound : Expr} {u : Unit}
    (h : (printWith objects options invoked span).addKeyword? keyword e = some (.ok u, bound)) :
    ∃ k : PrintKey, k.name = keyword := by
  refine Classical.byContradiction fun hexists => ?_
  have hnone := not_exists.mp hexists
  have hparam : printParameters.any (Parameter.takesKeyword keyword) = false := by
    simpa [printParameters, Parameter.takesKeyword, PrintKey.name] using
      And.intro (hnone .sep) (And.intro (hnone .ending) (And.intro (hnone .file) (hnone .flush)))
  rw [show (printWith objects options invoked span).addKeyword? keyword e =
      some ((printWith objects options invoked span).withBinding
        (Binding.keyword "print" printParameters _ keyword e)) from rfl, Binding.keyword, hparam] at h
  cases h

theorem addArgument?_callWith (func : Expr) (args : List Expr) (keywords : List (String × Expr))
    (invoked : Bool) (span : Span) (e bound : Expr) (u : Unit) :
    (callWith func args keywords invoked span).addArgument? e = some (.ok u, bound) ↔
      keywords = [] ∧ e.valueType.fits (.plain .object) = true ∧
        bound = callWith func (args ++ [e]) keywords true span := by
  have hstep : (callWith func args keywords invoked span).addArgument? e =
      some ((callWith func args keywords invoked span).withBinding
        (Binding.positional "Call" callParameters ⟨.after (!keywords.isEmpty) invoked,
          [("args", .variadic ⟨.plain .object, args.map (.holding (.plain .object))⟩),
            ("keywords", .variadic ⟨.plain .keyword, keywords.map fun passed =>
              .holding (.plain .keyword) (keywordNode passed)⟩)]⟩ e)) :=
    rfl
  cases keywords with
  | cons passed keywords =>
    rw [hstep, Binding.positional_closed rfl]
    simp [withBinding]
  | nil =>
    rw [hstep, Binding.positional_variadic rfl rfl rfl rfl, withBinding_ite_eq_ok_iff,
      callWith.eq_1 func (args ++ [e]), List.map_append]
    exact (and_iff_right rfl).symm

/-- The keywords that a call has been given. -/
theorem any_keywordName?_eq (keywords : List (String × Expr)) (keyword : String) :
    (((keywords.map fun passed => Slot.holding (.plain .keyword) (keywordNode passed)).filterMap
        Slot.expr?).any fun e => e.keywordName? == some keyword) =
      (keywords.map Prod.fst).contains keyword := by
  induction keywords with
  | nil => rfl
  | cons passed keywords ih =>
    rw [List.map_cons, List.filterMap_cons_some (Slot.expr?_holding _ _), List.any_cons, ih,
      List.map_cons, List.contains_cons, Bool.beq_comm]
    rfl

theorem addKeyword?_callWith (func : Expr) (args : List Expr) (keywords : List (String × Expr))
    (invoked : Bool) (span : Span) (keyword : String) (e bound : Expr) (u : Unit) :
    (callWith func args keywords invoked span).addKeyword? keyword e = some (.ok u, bound) ↔
      keyword ∉ keywords.map Prod.fst ∧ e.valueType.fits (.plain .object) = true ∧
        bound = callWith func args (keywords ++ [(keyword, e)]) true span := by
  have hstep : (callWith func args keywords invoked span).addKeyword? keyword e =
      some ((callWith func args keywords invoked span).withBinding
        (Binding.keyword "Call" callParameters ⟨.after (!keywords.isEmpty) invoked,
          [("args", .variadic ⟨.plain .object, args.map (.holding (.plain .object))⟩),
            ("keywords", .variadic ⟨.plain .keyword, keywords.map fun passed =>
              .holding (.plain .keyword) (keywordNode passed)⟩)]⟩ keyword e)) :=
    rfl
  have hcollector : callParameters.findSome? Parameter.collector? = some "keywords" := rfl
  have hbinder : (!(keywords ++ [(keyword, e)]).isEmpty) = true := by simp
  rw [hstep, Binding.keyword_collected rfl hcollector rfl, any_keywordName?_eq]
  by_cases hmem : keyword ∈ keywords.map Prod.fst
  · rw [if_pos (List.contains_iff_mem.mpr hmem)]
    simp [withBinding, hmem]
  · rw [if_neg (mt List.contains_iff_mem.mp hmem), withBinding_ite_eq_ok_iff,
      callWith.eq_1 func args (keywords ++ [(keyword, e)]), hbinder, List.map_append]
    exact (and_iff_right hmem).symm

theorem markInvoked_printWith (objects : List Expr) (options : PrintOptions) (invoked : Bool)
    (span : Span) :
    (printWith objects options invoked span).markInvoked = printWith objects options true span :=
  rfl

theorem markInvoked_callWith (func : Expr) (args : List Expr) (keywords : List (String × Expr))
    (invoked : Bool) (span : Span) :
    (callWith func args keywords invoked span).markInvoked =
      callWith func args keywords true span := rfl

end Expr

/-! ## All arguments of a call -/

/-- Offers an argument to a callee. -/
def Reading.Argument.offerTo (a : Argument) (callee : Expr) : Option (Edited Expr Unit) :=
  match a.keyword with
  | some keyword => callee.addKeyword? keyword a.value
  | none => callee.addArgument? a.value

theorem bindArguments_cons_eq (closing : Position) (callee : Expr) (a : Argument)
    (args : List Argument) :
    bindArguments closing callee (a :: args) =
      match a.offerTo callee with
      | none => .error (Reading.notSupported "Call" closing)
      | some (.error fault, _) => .error (fault.moveTo a.value.span.start)
      | some (.ok _, callee) => bindArguments closing callee args := rfl

/-- An argument that is taken leaves the others. -/
theorem bindArguments_cons {closing : Position} {callee callee' : Expr} {a : Argument}
    {args : List Argument} {u : Unit} (h : a.offerTo callee = some (.ok u, callee')) :
    bindArguments closing callee (a :: args) = bindArguments closing callee' args := by
  rw [bindArguments_cons_eq, h]

theorem bindArguments_cons_eq_ok_iff {closing : Position} {callee bound : Expr} {a : Argument}
    {args : List Argument} :
    bindArguments closing callee (a :: args) = .ok bound ↔
      ∃ u callee', a.offerTo callee = some (.ok u, callee') ∧
        bindArguments closing callee' args = .ok bound := by
  rw [bindArguments_cons_eq]
  cases a.offerTo callee with
  | none => simp
  | some outcome =>
    obtain ⟨outcome, callee'⟩ := outcome
    cases outcome <;> simp

/-- A positional argument. -/
def positional (e : Expr) : Argument := ⟨none, e⟩

/-- A keyword argument. -/
def passedUnder (passed : String × Expr) : Argument := ⟨some passed.1, passed.2⟩

/-- What `print` is passed under a keyword, as an argument. -/
def PrintOptions.argument (options : PrintOptions) (k : PrintKey) : List Argument :=
  (options k).toList.map fun e => passedUnder (k.name, e)

/-- The arguments of `print` in the order in which they are written. -/
def printArguments (objects : List Expr) (options : PrintOptions) : List Argument :=
  objects.map positional ++ PrintKey.all.flatMap options.argument

/-- The arguments of a call in the order in which they are written. -/
def callArguments (args : List Expr) (keywords : List (String × Expr)) : List Argument :=
  args.map positional ++ keywords.map passedUnder

namespace Expr

/-- `print` takes all objects that fit. -/
theorem bindArguments_objects (closing : Position) {objects : List Expr} (done : List Expr)
    (invoked : Bool) (span : Span) (rest : List Argument)
    (hfits : ∀ e ∈ objects, e.valueType.fits (.plain .object) = true) :
    ∃ invoked', bindArguments closing (printWith done .none invoked span)
        (objects.map positional ++ rest) =
      bindArguments closing (printWith (done ++ objects) .none invoked' span) rest := by
  induction objects generalizing done invoked with
  | nil => exact ⟨invoked, by simp⟩
  | cons e objects ih =>
    obtain ⟨invoked', hrest⟩ := ih (done ++ [e]) true fun e' he' =>
      hfits e' (List.mem_cons_of_mem e he')
    have hoffer : (positional e).offerTo (printWith done .none invoked span) =
        some (.ok (), printWith (done ++ [e]) .none true span) :=
      (addArgument?_printWith done .none invoked span e _ ()).mpr
        ⟨rfl, hfits e List.mem_cons_self, rfl⟩
    refine ⟨invoked', ?_⟩
    rw [List.map_cons, List.cons_append, bindArguments_cons hoffer, hrest, List.append_assoc,
      List.singleton_append]

/-- `print` takes what is passed under keywords that are still free. -/
theorem bindArguments_options (closing : Position) (objects : List Expr) {options : PrintOptions}
    (span : Span)
    (hfits : ∀ k e, options k = some e → e.valueType.fits k.type = true) :
    ∀ (keys : List PrintKey) (done : PrintOptions) (invoked : Bool), keys.Nodup →
      (∀ k ∈ keys, done k = none) →
      ∃ invoked', bindArguments closing (printWith objects done invoked span)
          (keys.flatMap options.argument) =
        .ok (printWith objects (fun k => if k ∈ keys then options k else done k) invoked' span) := by
  intro keys
  induction keys with
  | nil => exact fun done invoked _ _ => ⟨invoked, by simp [bindArguments]⟩
  | cons k keys ih =>
    intro done invoked hnodup hfree
    obtain ⟨hk, hnodup⟩ := List.nodup_cons.mp hnodup
    have hfree' : ∀ k' ∈ keys, done k' = none := fun k' hk' => hfree k' (List.mem_cons_of_mem k hk')
    rw [List.flatMap_cons]
    cases hoption : options k with
    | none =>
      obtain ⟨invoked', hrest⟩ := ih done invoked hnodup hfree'
      refine ⟨invoked', ?_⟩
      have hnothing : options.argument k = [] := by simp [PrintOptions.argument, hoption]
      rw [hnothing, List.nil_append, hrest]
      congr 2
      funext k'
      by_cases hk' : k' = k
      · subst hk'
        simp [hk, hoption, hfree k' List.mem_cons_self]
      · simp [hk']
    | some e =>
      have hfree'' : ∀ k' ∈ keys, done.set k e k' = none := by
        intro k' hk'
        have hne : k' ≠ k := fun heq => hk (heq ▸ hk')
        rw [PrintOptions.set_apply, if_neg hne]
        exact hfree' k' hk'
      obtain ⟨invoked', hrest⟩ := ih (done.set k e) true hnodup hfree''
      have hoffer : (passedUnder (k.name, e)).offerTo (printWith objects done invoked span) =
          some (.ok (), printWith objects (done.set k e) true span) :=
        (addKeyword?_printWith objects done invoked span k e _ ()).mpr
          ⟨hfree k List.mem_cons_self, hfits k e hoption, rfl⟩
      refine ⟨invoked', ?_⟩
      have hone : options.argument k = [passedUnder (k.name, e)] := by
        simp [PrintOptions.argument, hoption]
      rw [hone, List.singleton_append, bindArguments_cons hoffer, hrest]
      congr 2
      funext k'
      by_cases hk' : k' = k
      · subst hk'
        simp [hk, hoption, PrintOptions.set_apply]
      · simp [hk', PrintOptions.set_apply]

/-- **`print` takes its arguments** in the order in which they are written. -/
theorem bindArguments_print (closing : Position) {objects : List Expr} {options : PrintOptions}
    (span : Span) (hobjects : ∀ e ∈ objects, e.valueType.fits (.plain .object) = true)
    (hoptions : ∀ k e, options k = some e → e.valueType.fits k.type = true) :
    ∃ bound, bindArguments closing (emptyPrint span) (printArguments objects options) = .ok bound ∧
      bound.markInvoked = printWith objects options true span := by
  obtain ⟨invoked, hbind⟩ := bindArguments_objects closing [] false span
    (PrintKey.all.flatMap options.argument) hobjects
  obtain ⟨invoked', hbind'⟩ := bindArguments_options closing objects span hoptions PrintKey.all
    .none invoked (by decide) (fun _ _ => rfl)
  refine ⟨_, (hbind.trans hbind'), ?_⟩
  simp only [PrintKey.mem_all, if_true]
  exact markInvoked_printWith _ _ _ _

/-- A call takes all positional arguments that fit. -/
theorem bindArguments_args (closing : Position) (func : Expr) {args : List Expr}
    (done : List Expr) (invoked : Bool) (span : Span) (rest : List Argument)
    (hfits : ∀ e ∈ args, e.valueType.fits (.plain .object) = true) :
    ∃ invoked', bindArguments closing (callWith func done [] invoked span)
        (args.map positional ++ rest) =
      bindArguments closing (callWith func (done ++ args) [] invoked' span) rest := by
  induction args generalizing done invoked with
  | nil => exact ⟨invoked, by simp⟩
  | cons e args ih =>
    obtain ⟨invoked', hrest⟩ := ih (done ++ [e]) true fun e' he' =>
      hfits e' (List.mem_cons_of_mem e he')
    have hoffer : (positional e).offerTo (callWith func done [] invoked span) =
        some (.ok (), callWith func (done ++ [e]) [] true span) :=
      (addArgument?_callWith func done [] invoked span e _ ()).mpr
        ⟨rfl, hfits e List.mem_cons_self, rfl⟩
    refine ⟨invoked', ?_⟩
    rw [List.map_cons, List.cons_append, bindArguments_cons hoffer, hrest, List.append_assoc,
      List.singleton_append]

/-- A call takes all keywords that are not repeated. -/
theorem bindArguments_keywords (closing : Position) (func : Expr) (args : List Expr)
    {keywords : List (String × Expr)} (done : List (String × Expr)) (invoked : Bool) (span : Span)
    (hfits : ∀ passed ∈ keywords, passed.2.valueType.fits (.plain .object) = true)
    (hnodup : ((done ++ keywords).map Prod.fst).Nodup) :
    ∃ invoked', bindArguments closing (callWith func args done invoked span)
        (keywords.map passedUnder) =
      .ok (callWith func args (done ++ keywords) invoked' span) := by
  induction keywords generalizing done invoked with
  | nil => exact ⟨invoked, by simp [bindArguments]⟩
  | cons passed keywords ih =>
    have hsplit : done ++ passed :: keywords = (done ++ [passed]) ++ keywords := by simp
    obtain ⟨invoked', hrest⟩ := ih (done ++ [passed]) true
      (fun p hp => hfits p (List.mem_cons_of_mem passed hp)) (by rwa [← hsplit])
    have hfresh : passed.1 ∉ done.map Prod.fst := by
      rw [List.map_append, List.nodup_append] at hnodup
      exact fun hmem => hnodup.2.2 _ hmem _ (by simp) rfl
    have hoffer : (passedUnder passed).offerTo (callWith func args done invoked span) =
        some (.ok (), callWith func args (done ++ [passed]) true span) :=
      (addKeyword?_callWith func args done invoked span passed.1 passed.2 _ ()).mpr
        ⟨hfresh, hfits passed List.mem_cons_self, rfl⟩
    exact ⟨invoked', by rw [List.map_cons, bindArguments_cons hoffer, hrest, hsplit]⟩

/-- **A call takes its arguments** in the order in which they are written. -/
theorem bindArguments_call (closing : Position) (func : Expr) {args : List Expr}
    {keywords : List (String × Expr)} (span : Span)
    (hargs : ∀ e ∈ args, e.valueType.fits (.plain .object) = true)
    (hkeywords : ∀ passed ∈ keywords, passed.2.valueType.fits (.plain .object) = true)
    (hnodup : (keywords.map Prod.fst).Nodup) :
    ∃ bound, bindArguments closing (callWith func [] [] false span)
        (callArguments args keywords) = .ok bound ∧
      bound.markInvoked = callWith func args keywords true span := by
  obtain ⟨invoked, hbind⟩ := bindArguments_args closing func [] false span
    (keywords.map passedUnder) hargs
  obtain ⟨invoked', hbind'⟩ := bindArguments_keywords closing func args [] invoked span hkeywords
    hnodup
  exact ⟨_, hbind.trans hbind', markInvoked_callWith _ _ _ _ _⟩

/-! ## What binding leaves -/

/-- Whatever is bound to `print`, it comes out with its objects and options, and each of
them was there before or is one of the arguments. -/
theorem printWith_of_bindArguments {closing : Position} {args : List Argument}
    {objects : List Expr} {options : PrintOptions} {invoked : Bool} {span : Span} {bound : Expr}
    (h : bindArguments closing (printWith objects options invoked span) args = .ok bound) :
    ∃ objects' options' invoked', bound = printWith objects' options' invoked' span ∧
      (∀ e ∈ objects', e ∈ objects ∨
        e ∈ args.map Argument.value ∧ e.valueType.fits (.plain .object) = true) ∧
      ∀ k e, options' k = some e →
        options k = some e ∨ e ∈ args.map Argument.value ∧ e.valueType.fits k.type = true := by
  induction args generalizing objects options invoked with
  | nil =>
    obtain rfl := Except.ok.inj h
    exact ⟨objects, options, invoked, rfl, fun e he => Or.inl he, fun k e he => Or.inl he⟩
  | cons a args ih =>
    obtain ⟨u, callee, hoffer, hrest⟩ := bindArguments_cons_eq_ok_iff.mp h
    obtain ⟨keyword, value⟩ := a
    cases keyword with
    | none =>
      obtain ⟨-, hvalue, rfl⟩ := (addArgument?_printWith _ _ _ _ _ _ _).mp hoffer
      obtain ⟨objects', options', invoked', hbound, hobjects, hoptions⟩ := ih hrest
      refine ⟨objects', options', invoked', hbound, fun e he => ?_, fun k e he => ?_⟩
      · rcases hobjects e he with hmem | ⟨hmem, hfits⟩
        · rcases List.mem_append.mp hmem with hmem | hmem
          · exact Or.inl hmem
          · obtain rfl := List.mem_singleton.mp hmem
            exact Or.inr ⟨List.mem_cons_self, hvalue⟩
        · exact Or.inr ⟨List.mem_cons_of_mem _ hmem, hfits⟩
      · rcases hoptions k e he with hbefore | ⟨hmem, hfits⟩
        · exact Or.inl hbefore
        · exact Or.inr ⟨List.mem_cons_of_mem _ hmem, hfits⟩
    | some keyword =>
      obtain ⟨key, rfl⟩ := exists_name_of_addKeyword?_printWith hoffer
      obtain ⟨-, hfits, rfl⟩ := (addKeyword?_printWith _ _ _ _ _ _ _ _).mp hoffer
      obtain ⟨objects', options', invoked', hbound, hobjects, hoptions⟩ := ih hrest
      refine ⟨objects', options', invoked', hbound, fun e he => ?_, fun k e he => ?_⟩
      · rcases hobjects e he with hmem | ⟨hmem, hfits'⟩
        · exact Or.inl hmem
        · exact Or.inr ⟨List.mem_cons_of_mem _ hmem, hfits'⟩
      · rcases hoptions k e he with hbefore | ⟨hmem, hfits'⟩
        · rw [PrintOptions.set_apply] at hbefore
          split at hbefore
          · next heq =>
            obtain rfl := Option.some.inj hbefore
            exact Or.inr ⟨List.mem_cons_self, heq ▸ hfits⟩
          · exact Or.inl hbefore
        · exact Or.inr ⟨List.mem_cons_of_mem _ hmem, hfits'⟩

/-- Bound to `print` alone, nothing but arguments that fit comes out. -/
theorem printWith_of_bindArguments_emptyPrint {closing : Position} {args : List Argument}
    {span : Span} {bound : Expr} (h : bindArguments closing (emptyPrint span) args = .ok bound) :
    ∃ objects options invoked, bound = printWith objects options invoked span ∧
      (∀ e ∈ objects, e ∈ args.map Argument.value ∧ e.valueType.fits (.plain .object) = true) ∧
      ∀ k e, options k = some e →
        e ∈ args.map Argument.value ∧ e.valueType.fits k.type = true := by
  rw [emptyPrint_eq] at h
  obtain ⟨objects, options, invoked, hbound, hobjects, hoptions⟩ := printWith_of_bindArguments h
  refine ⟨objects, options, invoked, hbound, fun e he => ?_, fun k e he => ?_⟩
  · exact (hobjects e he).resolve_left List.not_mem_nil
  · exact (hoptions k e he).resolve_left (Option.some_ne_none e).symm

/-- Whatever is bound to a call, it comes out with its callee and arguments, each of them
was there before or is one of the arguments, and no keyword is repeated. -/
theorem callWith_of_bindArguments {closing : Position} {passed : List Argument} {func : Expr}
    {args : List Expr} {keywords : List (String × Expr)} {invoked : Bool} {span : Span}
    {bound : Expr} (hnodup : (keywords.map Prod.fst).Nodup)
    (h : bindArguments closing (callWith func args keywords invoked span) passed = .ok bound) :
    ∃ args' keywords' invoked', bound = callWith func args' keywords' invoked' span ∧
      (keywords'.map Prod.fst).Nodup ∧
      (∀ e ∈ args', e ∈ args ∨
        positional e ∈ passed ∧ e.valueType.fits (.plain .object) = true) ∧
      ∀ p ∈ keywords', p ∈ keywords ∨
        passedUnder p ∈ passed ∧ p.2.valueType.fits (.plain .object) = true := by
  induction passed generalizing args keywords invoked with
  | nil =>
    obtain rfl := Except.ok.inj h
    exact ⟨args, keywords, invoked, rfl, hnodup, fun e he => Or.inl he, fun p hp => Or.inl hp⟩
  | cons a passed ih =>
    obtain ⟨u, callee, hoffer, hrest⟩ := bindArguments_cons_eq_ok_iff.mp h
    obtain ⟨keyword, value⟩ := a
    cases keyword with
    | none =>
      obtain ⟨-, hvalue, rfl⟩ := (addArgument?_callWith _ _ _ _ _ _ _ _).mp hoffer
      obtain ⟨args', keywords', invoked', hbound, hdistinct, hargs, hkeywords⟩ := ih hnodup hrest
      refine ⟨args', keywords', invoked', hbound, hdistinct, fun e he => ?_, fun p hp => ?_⟩
      · rcases hargs e he with hmem | ⟨hmem, hfits⟩
        · rcases List.mem_append.mp hmem with hmem | hmem
          · exact Or.inl hmem
          · obtain rfl := List.mem_singleton.mp hmem
            exact Or.inr ⟨List.mem_cons_self, hvalue⟩
        · exact Or.inr ⟨List.mem_cons_of_mem _ hmem, hfits⟩
      · rcases hkeywords p hp with hmem | ⟨hmem, hfits⟩
        · exact Or.inl hmem
        · exact Or.inr ⟨List.mem_cons_of_mem _ hmem, hfits⟩
    | some keyword =>
      obtain ⟨hfresh, hvalue, rfl⟩ := (addKeyword?_callWith _ _ _ _ _ _ _ _ _).mp hoffer
      have hnodup' : ((keywords ++ [(keyword, value)]).map Prod.fst).Nodup := by
        rw [List.map_append, List.nodup_append]
        refine ⟨hnodup, by simp, fun a ha b hb heq => ?_⟩
        obtain rfl : b = keyword := by simpa using hb
        exact hfresh (heq ▸ ha)
      obtain ⟨args', keywords', invoked', hbound, hdistinct, hargs, hkeywords⟩ := ih hnodup' hrest
      refine ⟨args', keywords', invoked', hbound, hdistinct, fun e he => ?_, fun p hp => ?_⟩
      · rcases hargs e he with hmem | ⟨hmem, hfits⟩
        · exact Or.inl hmem
        · exact Or.inr ⟨List.mem_cons_of_mem _ hmem, hfits⟩
      · rcases hkeywords p hp with hmem | ⟨hmem, hfits⟩
        · rcases List.mem_append.mp hmem with hmem | hmem
          · exact Or.inl hmem
          · obtain rfl := List.mem_singleton.mp hmem
            exact Or.inr ⟨List.mem_cons_self, hvalue⟩
        · exact Or.inr ⟨List.mem_cons_of_mem _ hmem, hfits⟩

/-- Bound to a call of an expression, nothing but arguments that fit comes out. -/
theorem callWith_of_bindArguments_callOf {closing : Position} {passed : List Argument}
    {func call bound : Expr} {span : Span} (hcall : func.callOf span = .ok call)
    (h : bindArguments closing call passed = .ok bound) :
    ∃ args keywords invoked, bound = callWith func args keywords invoked span ∧
      (keywords.map Prod.fst).Nodup ∧
      (∀ e ∈ args, positional e ∈ passed ∧ e.valueType.fits (.plain .object) = true) ∧
      ∀ p ∈ keywords, passedUnder p ∈ passed ∧ p.2.valueType.fits (.plain .object) = true := by
  obtain ⟨-, rfl⟩ := callOf_eq_ok_iff.mp hcall
  have hform : bindArguments closing (callWith func [] [] false span) passed = .ok bound := h
  obtain ⟨args, keywords, invoked, hbound, hdistinct, hargs, hkeywords⟩ :=
    callWith_of_bindArguments (by simp) hform
  refine ⟨args, keywords, invoked, hbound, hdistinct, fun e he => ?_, fun p hp => ?_⟩
  · exact (hargs e he).resolve_left List.not_mem_nil
  · exact (hkeywords p hp).resolve_left List.not_mem_nil

end Expr
end SlotTree

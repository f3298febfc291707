import SlotTree.Proofs.Tree.Bind
import SlotTree.Proofs.Tree.Spans

/-!
# Forms without spans and as source

The two forms of callables, `Expr.printWith` and `Expr.callWith`, seen from outside.
Without spans a form is the form of its parts without spans, so binding arguments that
agree up to spans gives forms that agree up to spans (`bindArguments_printWith_congr`,
`bindArguments_callWith_congr`).  And the source text of a form is its callee with the
source texts of its arguments between parentheses, where the arguments stand in the order
of `printArguments` and `callArguments`.
-/

namespace SlotTree

open Reading (Argument bindArguments)

/-! ## Without spans -/

/-- The argument with every span in its value replaced. -/
def Reading.Argument.eraseSpans (a : Argument) : Argument := ⟨a.keyword, a.value.eraseSpans⟩

/-- The options with every span in them replaced. -/
def PrintOptions.eraseSpans (options : PrintOptions) : PrintOptions :=
  fun k => (options k).map Expr.eraseSpans

theorem PrintOptions.any_eraseSpans (options : PrintOptions) :
    options.eraseSpans.any = options.any := by
  simp [PrintOptions.any, PrintOptions.eraseSpans]

theorem PrintOptions.set_eraseSpans (options : PrintOptions) (k : PrintKey) (e : Expr) :
    (options.set k e).eraseSpans = options.eraseSpans.set k e.eraseSpans := by
  funext k'
  simp only [PrintOptions.eraseSpans, PrintOptions.set_apply]
  split <;> rfl

theorem Slot.eraseSpans_maybe (t : Ty) (e : Option Expr) :
    (Slot.maybe t e).eraseSpans = Slot.maybe t (e.map Expr.eraseSpans) := by
  cases e <;> rfl

namespace Expr

@[simp] theorem span_eraseSpans (e : Expr) : e.eraseSpans.span = .detached := by
  cases e with
  | call func args keywords binder span =>
    obtain ⟨argType, args⟩ := args
    obtain ⟨keywordType, keywords⟩ := keywords
    rfl
  | print objects sep ending file flush binder span =>
    obtain ⟨itemType, objects⟩ := objects
    rfl
  | _ => rfl

@[simp] theorem isInvoked?_eraseSpans (e : Expr) : e.eraseSpans.isInvoked? = e.isInvoked? := by
  cases e with
  | call func args keywords binder span =>
    obtain ⟨argType, args⟩ := args
    obtain ⟨keywordType, keywords⟩ := keywords
    rfl
  | print objects sep ending file flush binder span =>
    obtain ⟨itemType, objects⟩ := objects
    rfl
  | _ => rfl

theorem eraseSpans_markInvoked (e : Expr) :
    e.markInvoked.eraseSpans = e.eraseSpans.markInvoked := by
  cases e with
  | call func args keywords binder span =>
    obtain ⟨argType, args⟩ := args
    obtain ⟨keywordType, keywords⟩ := keywords
    rfl
  | print objects sep ending file flush binder span =>
    obtain ⟨itemType, objects⟩ := objects
    rfl
  | _ => rfl

theorem eraseSpans_printWith (objects : List Expr) (options : PrintOptions) (invoked : Bool)
    (span : Span) :
    (printWith objects options invoked span).eraseSpans =
      printWith (objects.map eraseSpans) options.eraseSpans invoked .detached := by
  simp only [printWith, eraseSpans, eraseSlots_eq_map, List.map_map, Slot.eraseSpans_maybe,
    PrintOptions.any_eraseSpans]
  rfl

/-- Without its span a keyword node is that of the value without spans. -/
theorem eraseSpans_keywordNode (passed : String × Expr) :
    (keywordNode passed).eraseSpans = keywordNode (passed.1, passed.2.eraseSpans) := by
  simp only [keywordNode, eraseSpans, span_eraseSpans]
  rfl

theorem eraseSpans_callWith (func : Expr) (args : List Expr) (keywords : List (String × Expr))
    (invoked : Bool) (span : Span) :
    (callWith func args keywords invoked span).eraseSpans =
      callWith func.eraseSpans (args.map eraseSpans)
        (keywords.map fun passed => (passed.1, passed.2.eraseSpans)) invoked .detached := by
  have hkeywords : (keywords.map fun passed =>
        Slot.holding (.plain .keyword) (keywordNode passed)).map Slot.eraseSpans =
      keywords.map fun passed =>
        Slot.holding (.plain .keyword) (keywordNode (passed.1, passed.2.eraseSpans)) := by
    rw [List.map_map]
    refine List.map_congr_left fun passed _ => ?_
    rw [← eraseSpans_keywordNode]
    rfl
  simp only [callWith, eraseSpans, eraseSlots_eq_map, hkeywords, List.map_map, List.isEmpty_map]
  rfl

/-! ## Binding up to spans -/

/-- Arguments that agree up to spans are bound to `print` alike. -/
theorem bindArguments_printWith_congr {closing : Position} (closing' : Position) {span : Span}
    (span' : Span) {args args' : List Argument} {objects objects' : List Expr}
    {options options' : PrintOptions} {invoked : Bool} {bound : Expr}
    (hargs : args'.map Argument.eraseSpans = args.map Argument.eraseSpans)
    (hobjects : objects'.map eraseSpans = objects.map eraseSpans)
    (hoptions : options'.eraseSpans = options.eraseSpans)
    (h : bindArguments closing (printWith objects options invoked span) args = .ok bound) :
    ∃ bound', bindArguments closing' (printWith objects' options' invoked span') args' =
        .ok bound' ∧ bound'.eraseSpans = bound.eraseSpans := by
  induction args generalizing args' objects objects' options options' invoked with
  | nil =>
    obtain rfl : args' = [] := by simpa using hargs
    obtain rfl := Except.ok.inj h
    refine ⟨_, rfl, ?_⟩
    rw [eraseSpans_printWith, eraseSpans_printWith, hobjects, hoptions]
  | cons a args ih =>
    obtain ⟨a', rest', rfl, ha, hrest'⟩ := List.map_eq_cons_iff.mp hargs
    obtain ⟨u, callee, hoffer, hrest⟩ := bindArguments_cons_eq_ok_iff.mp h
    obtain ⟨keyword, value⟩ := a
    obtain ⟨keyword', value'⟩ := a'
    obtain ⟨rfl, hvalue⟩ := (Argument.mk.injEq _ _ _ _).mp ha
    have htype := valueType_of_eraseSpans hvalue
    cases keyword' with
    | none =>
      obtain ⟨hany, hfits, rfl⟩ := (addArgument?_printWith _ _ _ _ _ _ _).mp hoffer
      have hoffer' : (⟨none, value'⟩ : Argument).offerTo
          (printWith objects' options' invoked span') =
            some (.ok (), printWith (objects' ++ [value']) options' true span') := by
        refine (addArgument?_printWith _ _ _ _ _ _ ()).mpr ⟨?_, by rwa [htype], rfl⟩
        rw [← PrintOptions.any_eraseSpans, hoptions, PrintOptions.any_eraseSpans, hany]
      have hobjects' : (objects' ++ [value']).map eraseSpans = (objects ++ [value]).map eraseSpans := by
        simp [hobjects, hvalue]
      obtain ⟨bound', hbound', herase⟩ := ih hrest' hobjects' hoptions hrest
      exact ⟨bound', by rw [bindArguments_cons hoffer', hbound'], herase⟩
    | some keyword =>
      obtain ⟨k, rfl⟩ := exists_name_of_addKeyword?_printWith hoffer
      obtain ⟨hfree, hfits, rfl⟩ := (addKeyword?_printWith _ _ _ _ _ _ _ _).mp hoffer
      have hoffer' : (⟨some k.name, value'⟩ : Argument).offerTo
          (printWith objects' options' invoked span') =
            some (.ok (), printWith objects' (options'.set k value') true span') := by
        refine (addKeyword?_printWith _ _ _ _ _ _ _ ()).mpr ⟨?_, by rwa [htype], rfl⟩
        have hk := congrFun hoptions k
        simpa [PrintOptions.eraseSpans, hfree] using hk
      have hoptions' : (options'.set k value').eraseSpans = (options.set k value).eraseSpans := by
        rw [PrintOptions.set_eraseSpans, PrintOptions.set_eraseSpans, hoptions, hvalue]
      obtain ⟨bound', hbound', herase⟩ := ih hrest' hobjects hoptions' hrest
      exact ⟨bound', by rw [bindArguments_cons hoffer', hbound'], herase⟩

/-- Keywords with their values, without spans. -/
def eraseKeywords (keywords : List (String × Expr)) : List (String × Expr) :=
  keywords.map fun passed => (passed.1, passed.2.eraseSpans)

theorem map_fst_eraseKeywords (keywords : List (String × Expr)) :
    (eraseKeywords keywords).map Prod.fst = keywords.map Prod.fst := by
  rw [eraseKeywords, List.map_map]
  rfl

/-- Arguments that agree up to spans are bound to a call alike. -/
theorem bindArguments_callWith_congr {closing : Position} (closing' : Position) {span : Span}
    (span' : Span) {passed passed' : List Argument} {func func' : Expr} {args args' : List Expr}
    {keywords keywords' : List (String × Expr)} {invoked : Bool} {bound : Expr}
    (hpassed : passed'.map Argument.eraseSpans = passed.map Argument.eraseSpans)
    (hfunc : func'.eraseSpans = func.eraseSpans)
    (hargs : args'.map eraseSpans = args.map eraseSpans)
    (hkeywords : eraseKeywords keywords' = eraseKeywords keywords)
    (h : bindArguments closing (callWith func args keywords invoked span) passed = .ok bound) :
    ∃ bound', bindArguments closing' (callWith func' args' keywords' invoked span') passed' =
        .ok bound' ∧ bound'.eraseSpans = bound.eraseSpans := by
  induction passed generalizing passed' args args' keywords keywords' invoked with
  | nil =>
    obtain rfl : passed' = [] := by simpa using hpassed
    obtain rfl := Except.ok.inj h
    refine ⟨_, rfl, ?_⟩
    simp only [eraseKeywords] at hkeywords
    rw [eraseSpans_callWith, eraseSpans_callWith, hfunc, hargs, hkeywords]
  | cons a passed ih =>
    obtain ⟨a', rest', rfl, ha, hrest'⟩ := List.map_eq_cons_iff.mp hpassed
    obtain ⟨u, callee, hoffer, hrest⟩ := bindArguments_cons_eq_ok_iff.mp h
    obtain ⟨keyword, value⟩ := a
    obtain ⟨keyword', value'⟩ := a'
    obtain ⟨rfl, hvalue⟩ := (Argument.mk.injEq _ _ _ _).mp ha
    have htype := valueType_of_eraseSpans hvalue
    cases keyword' with
    | none =>
      obtain ⟨rfl, hfits, rfl⟩ := (addArgument?_callWith _ _ _ _ _ _ _ _).mp hoffer
      obtain rfl : keywords' = [] := by simpa [eraseKeywords] using hkeywords
      have hoffer' : (⟨none, value'⟩ : Argument).offerTo (callWith func' args' [] invoked span') =
          some (.ok (), callWith func' (args' ++ [value']) [] true span') :=
        (addArgument?_callWith _ _ _ _ _ _ _ ()).mpr ⟨rfl, by rwa [htype], rfl⟩
      have hargs' : (args' ++ [value']).map eraseSpans = (args ++ [value]).map eraseSpans := by
        simp [hargs, hvalue]
      obtain ⟨bound', hbound', herase⟩ := ih hrest' hargs' hkeywords hrest
      exact ⟨bound', by rw [bindArguments_cons hoffer', hbound'], herase⟩
    | some keyword =>
      obtain ⟨hfresh, hfits, rfl⟩ := (addKeyword?_callWith _ _ _ _ _ _ _ _ _).mp hoffer
      have hoffer' : (⟨some keyword, value'⟩ : Argument).offerTo
          (callWith func' args' keywords' invoked span') =
            some (.ok (), callWith func' args' (keywords' ++ [(keyword, value')]) true span') := by
        refine (addKeyword?_callWith _ _ _ _ _ _ _ _ ()).mpr ⟨?_, by rwa [htype], rfl⟩
        rwa [← map_fst_eraseKeywords, hkeywords, map_fst_eraseKeywords]
      have hkeywords' : eraseKeywords (keywords' ++ [(keyword, value')]) =
          eraseKeywords (keywords ++ [(keyword, value)]) := by
        simp only [eraseKeywords, List.map_append] at hkeywords ⊢
        simp [hkeywords, hvalue]
      obtain ⟨bound', hbound', herase⟩ := ih hrest' hargs hkeywords' hrest
      exact ⟨bound', by rw [bindArguments_cons hoffer', hbound'], herase⟩

end Expr

/-! ## As source -/

/-- The source form of an argument. -/
def Reading.Argument.render (a : Argument) : Except Fault String :=
  match a.keyword with
  | some keyword => a.value.render.map (keyword ++ "=" ++ ·)
  | none => a.value.render

/-- A value under a keyword has a source form exactly if the value has one. -/
theorem render_passedUnder_eq_ok {passed : String × Expr} {text : String}
    (h : (passedUnder passed).render = .ok text) :
    ∃ value, passed.2.render = .ok value ∧ text = passed.1 ++ "=" ++ value := by
  have hmap : passed.2.render.map (passed.1 ++ "=" ++ ·) = .ok text := h
  cases hvalue : passed.2.render with
  | error fault =>
    rw [hvalue] at hmap
    cases hmap
  | ok value =>
    rw [hvalue] at hmap
    exact ⟨value, rfl, (Except.ok.inj hmap).symm⟩

namespace Expr

theorem renderSlots_positional {args : List Expr} {text : Argument → String} {t : Ty}
    (h : ∀ e ∈ args, (positional e).render = .ok (text (positional e))) :
    renderSlots (args.map (.holding t)) = .ok ((args.map positional).map text) := by
  induction args with
  | nil => rfl
  | cons e args ih =>
    have he : e.render = .ok (text (positional e)) := h e List.mem_cons_self
    have hargs := ih fun e' he' => h e' (List.mem_cons_of_mem e he')
    rw [List.map_cons, Slot.holding, renderSlots, he, hargs]
    rfl

theorem render_keywordNode {passed : String × Expr} {text : String}
    (h : (passedUnder passed).render = .ok text) : (keywordNode passed).render = .ok text := by
  obtain ⟨value, hvalue, rfl⟩ := render_passedUnder_eq_ok h
  rw [keywordNode, render, Slot.holding, Slot.render?, hvalue]
  rfl

theorem renderSlots_keywords {keywords : List (String × Expr)} {text : Argument → String}
    (h : ∀ passed ∈ keywords, (passedUnder passed).render = .ok (text (passedUnder passed))) :
    renderSlots (keywords.map fun passed => .holding (.plain .keyword) (keywordNode passed)) =
      .ok ((keywords.map passedUnder).map text) := by
  induction keywords with
  | nil => rfl
  | cons passed keywords ih =>
    have hpassed := render_keywordNode (h passed List.mem_cons_self)
    have hkeywords := ih fun p hp => h p (List.mem_cons_of_mem passed hp)
    rw [List.map_cons, Slot.holding, renderSlots, hpassed, hkeywords]
    rfl

/-- The source text of a call. -/
theorem render_callWith {func : Expr} {args : List Expr} {keywords : List (String × Expr)}
    {invoked : Bool} {span : Span} {callee : String} {text : Argument → String}
    (hfunc : func.render = .ok callee)
    (h : ∀ a ∈ callArguments args keywords, a.render = .ok (text a)) :
    (callWith func args keywords invoked span).render =
      .ok (callee ++ "(" ++ Source.commaSeparated ((callArguments args keywords).map text) ++ ")") := by
  have hargs := renderSlots_positional (t := .plain .object) fun e he =>
    h (positional e) (List.mem_append_left _ (List.mem_map_of_mem he))
  have hkeywords := renderSlots_keywords fun passed hpassed =>
    h (passedUnder passed) (List.mem_append_right _ (List.mem_map_of_mem hpassed))
  rw [callWith, render]
  simp only [Slot.holding, Slot.render?, hfunc]
  simp only [Slot.holding] at hargs hkeywords
  rw [hargs, hkeywords, callArguments, List.map_append]
  rfl

/-- What `print` is passed under one keyword, as source. -/
theorem renderPart_maybe {options : PrintOptions} {k : PrintKey} {text : Argument → String}
    (h : ∀ a ∈ options.argument k, a.render = .ok (text a)) :
    ∃ part, (Slot.maybe k.type (options k)).renderPart = .ok part ∧
      Source.keywordPart k.name part = (options.argument k).map text := by
  cases hk : options k with
  | none => exact ⟨none, rfl, by simp [PrintOptions.argument, hk, Source.keywordPart]⟩
  | some e =>
    have harguments : options.argument k = [passedUnder (k.name, e)] := by
      simp [PrintOptions.argument, hk]
    rw [harguments] at h ⊢
    obtain ⟨value, hvalue, htext⟩ := render_passedUnder_eq_ok (h _ List.mem_cons_self)
    refine ⟨some value, ?_, ?_⟩
    · have hvalue' : e.render = .ok value := hvalue
      rw [Slot.maybe_some, Slot.holding, Slot.renderPart, hvalue']
      rfl
    · rw [List.map_singleton, htext]
      rfl

/-- The source text of `print` with its arguments. -/
theorem render_printWith {objects : List Expr} {options : PrintOptions} {span : Span}
    {text : Argument → String}
    (h : ∀ a ∈ printArguments objects options, a.render = .ok (text a)) :
    (printWith objects options true span).render =
      .ok ("print(" ++ Source.commaSeparated ((printArguments objects options).map text) ++ ")") := by
  have hobjects := renderSlots_positional (t := .plain .object) fun e he =>
    h (positional e) (List.mem_append_left _ (List.mem_map_of_mem he))
  have hpart : ∀ k, ∃ part, (Slot.maybe k.type (options k)).renderPart = .ok part ∧
      Source.keywordPart k.name part = (options.argument k).map text := by
    intro k
    refine renderPart_maybe fun a ha => h a (List.mem_append_right _ ?_)
    exact List.mem_flatMap.mpr ⟨k, k.mem_all, ha⟩
  obtain ⟨sep, hsep, hsepText⟩ := hpart .sep
  obtain ⟨ending, hending, hendingText⟩ := hpart .ending
  obtain ⟨file, hfile, hfileText⟩ := hpart .file
  obtain ⟨flush, hflush, hflushText⟩ := hpart .flush
  have hoptions : (PrintKey.all.flatMap options.argument).map text =
      Source.keywordPart "sep" sep ++ (Source.keywordPart "end" ending ++
        (Source.keywordPart "file" file ++ Source.keywordPart "flush" flush)) := by
    simp only [PrintKey.name] at hsepText hendingText hfileText hflushText
    simp [PrintKey.all, hsepText, hendingText, hfileText, hflushText]
  have hinvoked : (Binder.after options.any true).invoked = true := rfl
  rw [printWith, render, hinvoked, hobjects, hsep, hending, hfile, hflush, printArguments,
    List.map_append, hoptions]
  simp only [Bool.not_true, Bool.false_and, Bool.false_eq_true, if_false, bind, Except.bind,
    List.append_assoc]

end Expr
end SlotTree

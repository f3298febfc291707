import SlotTree.Proofs.Reading.Located
import SlotTree.Proofs.Source.Compose
import SlotTree.Proofs.Token.Origin
import SlotTree.Tree.Node

/-!
# How the spans of a script nest

A node stands for a stretch of source, and one expects to find what stands below a node
inside of its stretch.  The reader puts spans together in many ways: from a single token,
from the first and the last token of a text or an annotation, from the callee and the
closing parenthesis of a call, from the name and the value of a definition.  All of these
nest.

There is one exception.  `print` is the node of its own call: the arguments are bound to
the node that was read from the name, and that node keeps its span.  So the arguments of
`print` stand behind it and not inside, and this holds of `print` wherever it is called
(`spans_nest_iff`).

The proof follows the grammar.  `Run file lo ts hi` says that tokens stand in a file one
after the other between two offsets, and it can be cut wherever a list of tokens can.  By
induction over a derivation, what is read from such tokens lies between the same offsets,
and nests (`Derives.nested`).
-/

namespace SlotTree

/-! ## Stretches of a file -/

namespace Span

/-- The span belongs to the file and lies between two offsets. -/
structure Between (file : String) (lo hi : Nat) (s : Span) : Prop where
  start_file : s.start.file = file
  stop_file : s.stop.file = file
  lo_le : lo ≤ s.start.offset
  start_le_stop : s.start.offset ≤ s.stop.offset
  stop_le : s.stop.offset ≤ hi

/-- A span lies inside another one. -/
structure Inside (inner outer : Span) : Prop where
  start_file : inner.start.file = outer.start.file
  stop_file : inner.stop.file = outer.stop.file
  start_le : outer.start.offset ≤ inner.start.offset
  stop_le : inner.stop.offset ≤ outer.stop.offset

variable {file : String} {lo hi lo' hi' : Nat} {s outer : Span}

theorem Between.mono (h : s.Between file lo hi) (hlo : lo' ≤ lo) (hhi : hi ≤ hi') :
    s.Between file lo' hi' :=
  ⟨h.start_file, h.stop_file, hlo.trans h.lo_le, h.start_le_stop, h.stop_le.trans hhi⟩

/-- What lies between the ends of a span lies inside of it. -/
theorem Between.inside (h : s.Between file outer.start.offset outer.stop.offset)
    (hstart : outer.start.file = file) (hstop : outer.stop.file = file) : s.Inside outer :=
  ⟨h.start_file.trans hstart.symm, h.stop_file.trans hstop.symm, h.lo_le, h.stop_le⟩

end Span

/-! ## Properties of all nodes of a tree -/

namespace Node

/-- The property holds of the node and of all nodes below it. -/
inductive Throughout (P : Node → Prop) : Node → Prop where
  | intro {n : Node} (here : P n) (below : ∀ c ∈ n.children, Throughout P c) : Throughout P n

theorem Throughout.here {P : Node → Prop} {n : Node} (h : n.Throughout P) : P n := by
  cases h with
  | intro here _ => exact here

theorem Throughout.of_mem_children {P : Node → Prop} {n c : Node} (h : n.Throughout P)
    (hc : c ∈ n.children) : c.Throughout P := by
  cases h with
  | intro _ below => exact below c hc

/-- A walk meets no other nodes. -/
theorem Throughout.of_mem_preOrder {P : Node → Prop} {n m : Node} (h : n.Throughout P)
    (hm : m ∈ n.preOrder) : m.Throughout P := by
  induction h with
  | @intro n here below ih =>
    rw [preOrder, List.mem_cons, List.mem_flatMap] at hm
    rcases hm with rfl | ⟨⟨c, hc⟩, -, hm⟩
    · exact .intro here below
    · exact ih c hc hm

/-- Whether the node is a builtin. -/
def isBuiltin : Node → Bool
  | stmt _ => false
  | expr e => e.builtinName?.isSome

/-- The node stands in the file, and what is directly below it lies inside, or for a builtin
behind. -/
structure Nests (file : String) (n : Node) : Prop where
  start_file : n.span.start.file = file
  stop_file : n.span.stop.file = file
  start_le_stop : n.span.start.offset ≤ n.span.stop.offset
  inside : n.isBuiltin = false → ∀ c ∈ n.children, c.span.Inside n.span
  behind : n.isBuiltin = true → ∀ c ∈ n.children, n.span.stop.offset < c.span.start.offset

/-- The node lies between two offsets of the file, and it nests with all that is below it. -/
structure Nested (file : String) (lo hi : Nat) (n : Node) : Prop where
  between : n.span.Between file lo hi
  throughout : n.Throughout (Nests file)

namespace Nested

variable {file : String} {lo hi lo' hi' : Nat} {n : Node}

theorem mono (h : n.Nested file lo hi) (hlo : lo' ≤ lo) (hhi : hi ≤ hi') :
    n.Nested file lo' hi' :=
  ⟨h.between.mono hlo hhi, h.throughout⟩

/-- A node lies between its own ends. -/
theorem tight (h : n.Nested file lo hi) :
    n.Nested file n.span.start.offset n.span.stop.offset :=
  ⟨⟨h.between.start_file, h.between.stop_file, Nat.le_refl _, h.between.start_le_stop,
    Nat.le_refl _⟩, h.throughout⟩

/-- A node around what is below it. -/
theorem around (hspan : n.span.Between file lo hi) (hplain : n.isBuiltin = false)
    (hchildren : ∀ c ∈ n.children, c.Nested file n.span.start.offset n.span.stop.offset) :
    n.Nested file lo hi := by
  refine ⟨hspan, .intro ⟨hspan.start_file, hspan.stop_file, hspan.start_le_stop, fun _ c hc => ?_,
    fun hbuiltin => ?_⟩ fun c hc => (hchildren c hc).throughout⟩
  · exact (hchildren c hc).between.inside hspan.start_file hspan.stop_file
  · rw [hplain] at hbuiltin
    cases hbuiltin

/-- A node without anything below it. -/
theorem leaf (hspan : n.span.Between file lo hi) (hchildren : n.children = []) :
    n.Nested file lo hi := by
  have hnone : ∀ c, c ∉ n.children := by simp [hchildren]
  exact ⟨hspan, .intro ⟨hspan.start_file, hspan.stop_file, hspan.start_le_stop,
    fun _ c hc => absurd hc (hnone c), fun _ c hc => absurd hc (hnone c)⟩
    fun c hc => absurd hc (hnone c)⟩

/-- A builtin with what is below it behind. -/
theorem before (hspan : n.span.Between file lo hi) (hbuiltin : n.isBuiltin = true)
    (hchildren : ∀ c ∈ n.children, c.Nested file (n.span.stop.offset + 1) hi') :
    n.Nested file lo hi := by
  refine ⟨hspan, .intro ⟨hspan.start_file, hspan.stop_file, hspan.start_le_stop,
    fun hplain => ?_, fun _ c hc => (hchildren c hc).between.lo_le⟩
    fun c hc => (hchildren c hc).throughout⟩
  rw [hbuiltin] at hplain
  cases hplain

end Nested

/-! ## What stands below -/

theorem mem_children_expr {e : Expr} {c : Node} :
    c ∈ (expr e).children ↔ ∃ entry ∈ e.fields, ∃ x ∈ entry.2.exprs, expr x = c := by
  have hbody : (expr e).body = [] := rfl
  rw [children, hbody, List.map_nil, List.nil_append, List.map_flatMap, List.mem_flatMap]
  simp only [fields, List.mem_map]

theorem mem_children_keywordNode {passed : String × Expr} {c : Node}
    (h : c ∈ (expr (.keywordNode passed)).children) : c = expr passed.2 := by
  obtain ⟨entry, hentry, x, hx, rfl⟩ := mem_children_expr.mp h
  simp only [Expr.keywordNode, Expr.fields, List.mem_cons, List.not_mem_nil, or_false] at hentry
  rcases hentry with rfl | rfl
  · cases hx
  · rw [List.mem_singleton.mp hx]

theorem mem_children_callWith {func : Expr} {args : List Expr} {keywords : List (String × Expr)}
    {invoked : Bool} {span : Span} {c : Node}
    (h : c ∈ (expr (.callWith func args keywords invoked span)).children) :
    c = expr func ∨ (∃ e ∈ args, c = expr e) ∨ ∃ p ∈ keywords, c = expr (.keywordNode p) := by
  obtain ⟨entry, hentry, x, hx, rfl⟩ := mem_children_expr.mp h
  simp only [Expr.callWith, Expr.fields, List.mem_cons, List.not_mem_nil, or_false] at hentry
  rcases hentry with rfl | rfl | rfl
  · rw [List.mem_singleton.mp hx]
    exact Or.inl rfl
  · simp only [Field.exprs, Field.slots, List.mem_filterMap, List.mem_map] at hx
    obtain ⟨-, ⟨e, he, rfl⟩, hx⟩ := hx
    exact Or.inr (Or.inl ⟨e, he, by rw [Option.some.inj hx]⟩)
  · simp only [Field.exprs, Field.slots, List.mem_filterMap, List.mem_map] at hx
    obtain ⟨-, ⟨p, hp, rfl⟩, hx⟩ := hx
    exact Or.inr (Or.inr ⟨p, hp, by rw [Option.some.inj hx]⟩)

theorem mem_children_printWith {objects : List Expr} {options : PrintOptions} {invoked : Bool}
    {span : Span} {c : Node}
    (h : c ∈ (expr (.printWith objects options invoked span)).children) :
    (∃ e ∈ objects, c = expr e) ∨ ∃ k e, options k = some e ∧ c = expr e := by
  have hoption : ∀ (k : PrintKey) (x : Expr),
      x ∈ (Field.slot (.maybe k.type (options k))).exprs → options k = some x := by
    intro k x hx
    simpa [Field.exprs, Field.slots] using hx
  obtain ⟨entry, hentry, x, hx, rfl⟩ := mem_children_expr.mp h
  simp only [Expr.printWith, Expr.fields, List.mem_cons, List.not_mem_nil, or_false] at hentry
  rcases hentry with rfl | rfl | rfl | rfl | rfl
  · simp only [Field.exprs, Field.slots, List.mem_filterMap, List.mem_map] at hx
    obtain ⟨-, ⟨e, he, rfl⟩, hx⟩ := hx
    exact Or.inl ⟨e, he, by rw [Option.some.inj hx]⟩
  · exact Or.inr ⟨.sep, x, hoption .sep x hx, rfl⟩
  · exact Or.inr ⟨.ending, x, hoption .ending x hx, rfl⟩
  · exact Or.inr ⟨.file, x, hoption .file x hx, rfl⟩
  · exact Or.inr ⟨.flush, x, hoption .flush x hx, rfl⟩

end Node

/-! ## Tokens one after the other -/

namespace Reading

/-- Tokens that stand in a file one after the other, between two offsets. -/
def Run (file : String) : (lo : Nat) → List Token → (hi : Nat) → Prop
  | lo, [], hi => lo ≤ hi
  | lo, t :: ts, hi =>
    t.span.Between file lo t.span.stop.offset ∧
      (t.kind = .openParen → t.span.start.offset < t.span.stop.offset) ∧
      Run file t.span.stop.offset ts hi

namespace Run

variable {file : String} {lo hi : Nat} {t : Token} {ts us : List Token}

theorem le (h : Run file lo ts hi) : lo ≤ hi := by
  induction ts generalizing lo with
  | nil => exact h
  | cons t ts ih =>
    obtain ⟨ht, -, hrest⟩ := h
    exact (ht.lo_le.trans ht.start_le_stop).trans (ih hrest)

/-- Tokens can be cut anywhere. -/
theorem split (h : Run file lo (ts ++ us) hi) : ∃ mid, Run file lo ts mid ∧ Run file mid us hi := by
  induction ts generalizing lo with
  | nil => exact ⟨lo, Nat.le_refl lo, h⟩
  | cons t ts ih =>
    obtain ⟨ht, hopen, hrest⟩ := h
    obtain ⟨mid, hts, hus⟩ := ih hrest
    exact ⟨mid, ⟨ht, hopen, hts⟩, hus⟩

theorem between_head (h : Run file lo (t :: ts) hi) : t.span.Between file lo hi :=
  h.1.mono (Nat.le_refl lo) h.2.2.le

/-- The stretch from the first token to the last. -/
theorem between_stretch (h : Run file lo (t :: ts) hi) : (stretch t ts).Between file lo hi := by
  induction ts generalizing lo t with
  | nil => exact h.between_head
  | cons u us ih =>
    -- without its first token the stretch ends where it did
    obtain ⟨ht, -, hrest⟩ := h
    have hlater := ih hrest
    have hlast : (stretch t (u :: us)).stop = (stretch u us).stop := rfl
    refine ⟨ht.start_file, ?_, ht.lo_le, ?_, ?_⟩
    · rw [hlast]
      exact hlater.stop_file
    · rw [hlast]
      exact ht.start_le_stop.trans (hlater.lo_le.trans hlater.start_le_stop)
    · rw [hlast]
      exact hlater.stop_le

/-- Tokens that do not overlap, in the order of the file. -/
theorem of_pairwise (horigin : ∀ t ∈ ts, t.Origin file)
    (hinside : ∀ t ∈ ts, lo ≤ t.span.start.offset ∧ t.span.start.offset ≤ t.span.stop.offset ∧
      t.span.stop.offset ≤ hi)
    (hordered : ts.Pairwise fun t u => t.span.stop.offset ≤ u.span.start.offset) (hle : lo ≤ hi) :
    Run file lo ts hi := by
  induction ts generalizing lo with
  | nil => exact hle
  | cons t ts ih =>
    obtain ⟨hlo, hspan, hhi⟩ := hinside t List.mem_cons_self
    have ht := horigin t List.mem_cons_self
    rw [List.pairwise_cons] at hordered
    refine ⟨⟨ht.start_file, ht.stop_file, hlo, hspan, Nat.le_refl _⟩, fun hkind => ?_, ?_⟩
    · exact ht.start_lt_stop (by rw [hkind]; decide)
    · refine ih (fun u hu => horigin u (List.mem_cons_of_mem t hu)) (fun u hu => ?_) hordered.2 hhi
      exact ⟨hordered.1 u hu, (hinside u (List.mem_cons_of_mem t hu)).2⟩

end Run

/-! ## What is read nests -/

/-- What a phrase denotes lies between two offsets of the file and nests. -/
def Phrase.Nested (file : String) (lo hi : Nat) : Phrase → Prop
  | .expr e => (Node.expr e).Nested file lo hi
  | .argument a => (Node.expr a.value).Nested file lo hi
  | .arguments args => ∀ a ∈ args, (Node.expr a.value).Nested file lo hi

theorem Phrase.Nested.mono {file : String} {lo hi lo' hi' : Nat} {p : Phrase}
    (h : p.Nested file lo hi) (hlo : lo' ≤ lo) (hhi : hi ≤ hi') : p.Nested file lo' hi' := by
  cases p with
  | expr e => exact Node.Nested.mono h hlo hhi
  | argument a => exact Node.Nested.mono h hlo hhi
  | arguments args => exact fun a ha => (h a ha).mono hlo hhi

/-- A name stands where it is written, and nothing stands below it. -/
theorem nested_mention {file : String} {lo hi : Nat} {t : Token}
    (h : t.span.Between file lo hi) : (Node.expr (mention t)).Nested file lo hi := by
  unfold mention
  split
  · next constructor hfind =>
    refine .leaf ?_ ?_
    · rwa [Node.span, span_of_find?_default hfind]
    · rcases Registry.find?_default hfind with ⟨c, -, rfl⟩ | rfl | ⟨-, rfl⟩ <;> rfl
  · exact .leaf h rfl

/-- A keyword argument stands where its value does. -/
theorem nested_keywordNode {file : String} {lo hi : Nat} {p : String × Expr}
    (h : (Node.expr p.2).Nested file lo hi) : (Node.expr (.keywordNode p)).Nested file lo hi := by
  refine .around h.between rfl fun c hc => ?_
  rw [Node.mem_children_keywordNode hc]
  exact h.tight

/-- `print` with its arguments behind it. -/
theorem nested_printWith {file : String} {lo hi hi' : Nat} {objects : List Expr}
    {options : PrintOptions} {invoked : Bool} {span : Span} (hspan : span.Between file lo hi)
    (hobjects : ∀ e ∈ objects, (Node.expr e).Nested file (span.stop.offset + 1) hi')
    (hoptions : ∀ k e, options k = some e →
      (Node.expr e).Nested file (span.stop.offset + 1) hi') :
    (Node.expr (.printWith objects options invoked span)).Nested file lo hi := by
  have hbehind : ∀ c ∈ (Node.expr (.printWith objects options invoked span)).children,
      c.Nested file (span.stop.offset + 1) hi' := by
    intro c hc
    rcases Node.mem_children_printWith hc with ⟨e, he, rfl⟩ | ⟨k, e, he, rfl⟩
    · exact hobjects e he
    · exact hoptions k e he
  exact .before hspan rfl hbehind

/-- A call around its callee and its arguments. -/
theorem nested_callWith {file : String} {lo hi : Nat} {func : Expr} {args : List Expr}
    {keywords : List (String × Expr)} {invoked : Bool} {span : Span}
    (hspan : span.Between file lo hi)
    (hfunc : (Node.expr func).Nested file span.start.offset span.stop.offset)
    (hargs : ∀ e ∈ args, (Node.expr e).Nested file span.start.offset span.stop.offset)
    (hkeywords : ∀ p ∈ keywords,
      (Node.expr p.2).Nested file span.start.offset span.stop.offset) :
    (Node.expr (.callWith func args keywords invoked span)).Nested file lo hi := by
  refine .around hspan rfl fun c hc => ?_
  rcases Node.mem_children_callWith hc with rfl | ⟨e, he, rfl⟩ | ⟨p, hp, rfl⟩
  · exact hfunc
  · exact hargs e he
  · exact nested_keywordNode (hkeywords p hp)

/-- A call of a nested expression with nested arguments nests. -/
theorem nested_call {file : String} {lo mid hi : Nat} {left callee bound : Expr}
    {args : List Argument} {closing : Span}
    (hcalled : left.isInvoked? = some false → ∃ span, left = .emptyPrint span)
    (hleft : (Node.expr left).Nested file lo mid)
    (hargs : ∀ a ∈ args, (Node.expr a.value).Nested file (mid + 1) closing.start.offset)
    (hclosing : closing.Between file mid hi)
    (hcallee : calleeOf left closing.stop = .ok callee)
    (hbind : bindArguments closing.start callee args = .ok bound) :
    (Node.expr bound.markInvoked).Nested file lo hi := by
  have hmid : mid ≤ closing.stop.offset := hclosing.lo_le.trans hclosing.start_le_stop
  unfold calleeOf at hcallee
  split at hcallee
  · next hinvoked =>
    -- `print` takes the arguments itself, and keeps its span
    obtain rfl := Except.ok.inj hcallee
    obtain ⟨span, rfl⟩ := hcalled (by simpa using hinvoked)
    obtain ⟨objects, options, invoked, rfl, hobjects, hoptions⟩ :=
      Expr.printWith_of_bindArguments_emptyPrint hbind
    have hvalue : ∀ e ∈ args.map Argument.value,
        (Node.expr e).Nested file (span.stop.offset + 1) closing.start.offset := by
      intro e he
      obtain ⟨a, ha, rfl⟩ := List.mem_map.mp he
      exact (hargs a ha).mono (Nat.succ_le_succ hleft.between.stop_le) (Nat.le_refl _)
    rw [Expr.markInvoked_printWith]
    exact nested_printWith (hleft.between.mono (Nat.le_refl lo) (hmid.trans hclosing.stop_le))
      (fun e he => hvalue e (hobjects e he).1) (fun k e he => hvalue e (hoptions k e he).1)
  · split at hcallee
    · next call hcall =>
      obtain rfl := Except.ok.inj hcallee
      obtain ⟨passed, keywords, invoked, rfl, -, hpassed, hkeywords⟩ :=
        Expr.callWith_of_bindArguments_callOf hcall hbind
      have hstart : left.span.start.offset ≤ mid :=
        hleft.between.start_le_stop.trans hleft.between.stop_le
      have hspan : Span.Between file lo hi ⟨left.span.start, closing.stop⟩ :=
        ⟨hleft.between.start_file, hclosing.stop_file, hleft.between.lo_le, hstart.trans hmid,
          hclosing.stop_le⟩
      have hvalue : ∀ a ∈ args,
          (Node.expr a.value).Nested file left.span.start.offset closing.stop.offset :=
        fun a ha => (hargs a ha).mono (hstart.trans (Nat.le_succ mid)) hclosing.start_le_stop
      rw [Expr.markInvoked_callWith]
      refine nested_callWith hspan ?_ (fun e he => hvalue _ (hpassed e he).1)
        (fun p hp => hvalue _ (hkeywords p hp).1)
      exact hleft.tight.mono (Nat.le_refl _) (hleft.between.stop_le.trans hmid)
    · cases hcallee

/-- **What is read from a run of tokens lies where they do, and nests.** -/
theorem Derives.nested {file : String} {lo hi : Nat} {ts : List Token} {p : Phrase}
    (h : Derives ts p) (hrun : Run file lo ts hi) : p.Nested file lo hi := by
  induction h generalizing lo hi with
  | constant _ => exact .leaf hrun.between_head rfl
  | text _ => exact .leaf hrun.between_stretch rfl
  | name _ => exact nested_mention hrun.between_head
  | group _ _ _ ih =>
    obtain ⟨hopening, -, hrest⟩ := hrun
    obtain ⟨mid, hinner, hclosing⟩ := hrest.split
    exact (ih hinner).mono (hopening.lo_le.trans hopening.start_le_stop) hclosing.le
  | @call ts us opening closing left callee bound args whole openKind _ _ called binds ih₁ ih₂ =>
    obtain ⟨mid, hts, hopening, hopen, hrest⟩ := hrun.split
    obtain ⟨mid', hus, hclosing⟩ := hrest.split
    -- the opening parenthesis takes room between the callee and its arguments
    have hroom : mid + 1 ≤ opening.span.stop.offset :=
      Nat.lt_of_le_of_lt hopening.lo_le (hopen openKind)
    refine nested_call whole.calledOrPrint (ih₁ hts) (fun a ha => ?_) ?_ called binds
    · exact (ih₂ hus a ha).mono hroom hclosing.1.lo_le
    · exact hclosing.between_head.mono ((Nat.le_of_succ_le hroom).trans hus.le) (Nat.le_refl hi)
  | positional _ ih => exact ih hrun
  | keyword _ _ _ ih =>
    obtain ⟨htarget, -, hequals, -, hrest⟩ := hrun
    have hlo := htarget.lo_le.trans htarget.start_le_stop
    exact (ih hrest).mono (hlo.trans (hequals.lo_le.trans hequals.start_le_stop)) (Nat.le_refl hi)
  | noArguments => exact fun a ha => absurd ha List.not_mem_nil
  | lastArgument _ ih => exact fun a ha => List.mem_singleton.mp ha ▸ ih hrun
  | moreArguments _ _ _ ih₁ ih₂ =>
    obtain ⟨mid, hfirst, hcomma, -, hrest⟩ := hrun.split
    intro a ha
    rcases List.mem_cons.mp ha with rfl | ha
    · have hhi := hcomma.lo_le.trans (hcomma.start_le_stop.trans hrest.le)
      exact (ih₁ hfirst).mono (Nat.le_refl lo) hhi
    · have hlo := hfirst.le.trans (hcomma.lo_le.trans hcomma.start_le_stop)
      exact (ih₂ hrest a ha).mono hlo (Nat.le_refl hi)

/-- A statement lies where its tokens do, and nests. -/
theorem DerivesStmt.nested {file : String} {lo hi : Nat} {ts : List Token} {s : Stmt}
    (h : DerivesStmt ts s) (hrun : Run file lo ts hi) : (Node.stmt s).Nested file lo hi := by
  cases h with
  | @expression _ e value _ =>
    have hvalue : (Node.expr e).Nested file lo hi := value.nested hrun
    refine .around hvalue.between rfl fun c hc => ?_
    obtain rfl : c = Node.expr e := List.mem_singleton.mp hc
    exact hvalue.tight
  | @declaration target colon first more type _ _ _ =>
    obtain ⟨htarget, -, hcolon, -, hrest⟩ := hrun
    have htype := hrest.between_stretch
    have hbefore : target.span.stop.offset ≤ (stretch first more).start.offset :=
      hcolon.lo_le.trans (hcolon.start_le_stop.trans htype.lo_le)
    refine .around ⟨htarget.start_file, htype.stop_file, htarget.lo_le, ?_, htype.stop_le⟩ rfl
      fun c hc => ?_
    · exact htarget.start_le_stop.trans (hbefore.trans htype.start_le_stop)
    · obtain rfl : c = Node.expr (.type type (stretch first more)) := List.mem_singleton.mp hc
      exact (Node.Nested.leaf htype rfl).tight.mono (htarget.start_le_stop.trans hbefore)
        (Nat.le_refl _)
  | @definition target colon first equals more ts type e _ _ _ _ value _ =>
    obtain ⟨htarget, -, hcolon, -, hrest⟩ := hrun
    rw [← List.cons_append] at hrest
    obtain ⟨mid, hdeclared, hequals, -, hts⟩ := hrest.split
    have htype := hdeclared.between_stretch
    have hvalue : (Node.expr e).Nested file equals.span.stop.offset hi := value.nested hts
    have hbefore : target.span.start.offset ≤ (stretch first more).start.offset :=
      htarget.start_le_stop.trans (hcolon.lo_le.trans (hcolon.start_le_stop.trans htype.lo_le))
    have hbetween : (stretch first more).stop.offset ≤ e.span.start.offset :=
      htype.stop_le.trans
        (hequals.lo_le.trans (hequals.start_le_stop.trans hvalue.between.lo_le))
    have hstart : target.span.start.offset ≤ e.span.start.offset :=
      hbefore.trans (htype.start_le_stop.trans hbetween)
    refine .around ⟨htarget.start_file, hvalue.between.stop_file, htarget.lo_le,
      hstart.trans hvalue.between.start_le_stop, hvalue.between.stop_le⟩ rfl fun c hc => ?_
    have hchildren : (Node.stmt (.definition (.ofLiteral (.str target.text))
        (Stmt.typeSlot type (stretch first more) (some (.holding type e)))
        ⟨target.span.start, e.span.stop⟩)).children =
          [.expr (.type type (stretch first more)), .expr e] := rfl
    rw [hchildren, List.mem_cons, List.mem_singleton] at hc
    rcases hc with rfl | rfl
    · exact (Node.Nested.leaf htype rfl).tight.mono hbefore
        (hbetween.trans hvalue.between.start_le_stop)
    · exact hvalue.tight.mono hstart (Nat.le_refl _)

/-- The statements of a script lie where its tokens do, and nest. -/
theorem DerivesScript.nested {file : String} {lo hi : Nat} {ts : List Token} {body : List Stmt}
    (h : DerivesScript ts body) (hrun : Run file lo ts hi) :
    ∀ s ∈ body, (Node.stmt s).Nested file lo hi := by
  induction h generalizing lo with
  | nil => simp
  | last stmt =>
    intro s hs
    rw [List.mem_singleton.mp hs]
    exact stmt.nested hrun
  | cons stmt _ _ ih =>
    obtain ⟨mid, hts, hrest⟩ := hrun.split
    obtain ⟨mid', hes, hus⟩ := hrest.split
    intro s hs
    rcases List.mem_cons.mp hs with rfl | hs
    · exact (stmt.nested hts).mono (Nat.le_refl lo) hrest.le
    · exact (ih hus s hs).mono (hts.le.trans hes.le) (Nat.le_refl hi)

/-- The tokens of a script before its end are a run. -/
theorem run_of_tokenize {source file : String} {ts : List Token} {last : Token}
    (h : tokenize source file = .ok (ts ++ [last])) : Run file 0 ts last.span.start.offset := by
  obtain ⟨s, hscan, htokens⟩ := tokenize_eq_ok_iff.mp h
  have hlossless := lossless_of_run hscan
  rw [htokens] at hlossless
  obtain ⟨hordered, -, hlast⟩ := List.pairwise_append.mp hlossless.ordered
  have hmem : ∀ t ∈ ts, t ∈ ts ++ [last] := fun t ht => List.mem_append_left _ ht
  refine .of_pairwise (fun t ht => origin_of_tokenize h t (hmem t ht)) (fun t ht => ?_) hordered
    (Nat.zero_le _)
  exact ⟨Nat.zero_le _, (hlossless.inside t (hmem t ht)).1, hlast t ht last (by simp)⟩

/-- **A script nests.** -/
theorem nested_of_readSource {source file : String} {b : Block}
    (h : readSource source file = .ok b) :
    (Node.stmt (.block b)).Throughout (Node.Nests file) := by
  obtain ⟨ts, last, htokens, -, hscript, hspan⟩ := readSource_eq_ok_iff.mp h
  have hend := origin_of_tokenize htokens last (by simp)
  have hbetween : b.span.Between file 0 last.span.start.offset := by
    rw [hspan]
    exact ⟨rfl, hend.start_file, Nat.le_refl 0, Nat.zero_le _, Nat.le_refl _⟩
  refine (Node.Nested.around (n := .stmt (.block b)) hbetween rfl fun c hc => ?_).throughout
  obtain ⟨s, hs, rfl⟩ : ∃ s ∈ b.body, Node.stmt s = c := by
    simpa [Node.children, Node.body, Node.fields, Stmt.fields] using hc
  have hs' := hscript.nested (run_of_tokenize htokens) s hs
  simpa [Node.span, Stmt.span, hspan] using hs'

/-- **The spans of a script nest except below builtins.**  All nodes stand in the file of the
script.  What is directly below a node lies inside of it exactly if the node is not a builtin, and
what is below a builtin lies behind it. -/
theorem spans_nest_iff {source file : String} {b : Block} (h : readSource source file = .ok b) :
    ∀ n ∈ (Node.stmt (.block b)).preOrder,
      (n.span.start.file = file ∧ n.span.stop.file = file) ∧
      ∀ c ∈ n.children, (c.span.Inside n.span ↔ n.isBuiltin = false) ∧
        (n.isBuiltin = true → n.span.stop.offset < c.span.start.offset) := by
  intro n hn
  have hthroughout := (nested_of_readSource h).of_mem_preOrder hn
  have hnests := hthroughout.here
  refine ⟨⟨hnests.start_file, hnests.stop_file⟩, fun c hc => ⟨⟨fun hinside => ?_, fun hplain => ?_⟩,
    fun hbuiltin => hnests.behind hbuiltin c hc⟩⟩
  · rw [← Bool.not_eq_true]
    intro hbuiltin
    have hbehind := hnests.behind hbuiltin c hc
    have hspan := (hthroughout.of_mem_children hc).here.start_le_stop
    have hstop := hinside.stop_le
    omega
  · exact hnests.inside hplain c hc

/-- The name of a node, whether it is a builtin, and the bytes at which it and what is directly
below it begin and end. -/
structure Extent where
  name : String
  builtin : Bool
  bytes : Nat × Nat
  below : List (Nat × Nat)
  deriving DecidableEq

/-- The extent of a node. -/
def extent (n : Node) : Extent :=
  ⟨n.name, n.isBuiltin, (n.span.start.offset, n.span.stop.offset),
    n.children.map fun c => (c.span.start.offset, c.span.stop.offset)⟩

/-- A builtin with an argument, below a keyword argument. -/
def keywordScript : String := "f(k=print(2))"

/-- The extents of its nodes. -/
def keywordExtents : List Extent :=
  [⟨"CodeBlock", false, (0, 13), [(0, 13)]⟩, ⟨"ExpressionStmt", false, (0, 13), [(0, 13)]⟩,
    ⟨"Call", false, (0, 13), [(0, 1), (4, 9)]⟩, ⟨"VariableLoader", false, (0, 1), []⟩,
    ⟨"Keyword", false, (4, 9), [(4, 9)]⟩, ⟨"print", true, (4, 9), [(10, 11)]⟩,
    ⟨"IntLiteral", false, (10, 11), []⟩]

theorem spans_nest_iff_keyword :
    ∃ b call print, readSource keywordScript "main.py" = .ok b ∧
      (Node.stmt (.block b)).preOrder.map extent = keywordExtents ∧
      call ∈ (Node.stmt (.block b)).preOrder ∧ call.name = "Call" ∧
      (∀ c ∈ call.children, c.span.Inside call.span) ∧
      print ∈ (Node.stmt (.block b)).preOrder ∧ print.name = "print" ∧
      ∃ c ∈ print.children, ¬ c.span.Inside print.span := by
  have hextents : ((readSource keywordScript "main.py").toOption.map fun b =>
      (Node.stmt (.block b)).preOrder.map extent) = some keywordExtents := by
    decide +kernel
  obtain ⟨b, hread, hmap⟩ := Option.map_eq_some_iff.mp hextents
  have hb := toOption_eq_some_iff.mp hread
  have hfind : ∀ x ∈ keywordExtents, ∃ n ∈ (Node.stmt (.block b)).preOrder, extent n = x := by
    intro x hx
    rwa [← List.mem_map, hmap]
  obtain ⟨call, hcall, hextent⟩ := hfind ⟨"Call", false, (0, 13), [(0, 1), (4, 9)]⟩ (by decide)
  obtain ⟨print, hprint, hextent'⟩ := hfind ⟨"print", true, (4, 9), [(10, 11)]⟩ (by decide)
  obtain ⟨c, cs, hchildren, -, -⟩ := List.map_eq_cons_iff.mp (congrArg Extent.below hextent')
  have hc : c ∈ print.children := by simp [hchildren]
  refine ⟨b, call, print, hb, hmap, hcall, congrArg Extent.name hextent, fun d hd => ?_, hprint,
    congrArg Extent.name hextent', c, hc, fun hinside => ?_⟩
  · exact ((spans_nest_iff hb call hcall).2 d hd).1.mpr (congrArg Extent.builtin hextent)
  · have hplain := ((spans_nest_iff hb print hprint).2 c hc).1.mp hinside
    exact Bool.noConfusion (hplain.symm.trans (congrArg Extent.builtin hextent'))

/-- **The arguments of `print` stand outside of it.** -/
theorem print_argument_not_inside :
    ∃ b n c, readSource "print(1)" "main.py" = .ok b ∧ n ∈ (Node.stmt (.block b)).preOrder ∧
      c ∈ n.children ∧ n.name = "print" ∧ ¬ c.span.Inside n.span := by
  have hextents : ((readSource "print(1)" "main.py").toOption.map fun b =>
      (Node.stmt (.block b)).preOrder.map extent) =
        some [⟨"CodeBlock", false, (0, 8), [(0, 5)]⟩, ⟨"ExpressionStmt", false, (0, 5), [(0, 5)]⟩,
          ⟨"print", true, (0, 5), [(6, 7)]⟩, ⟨"IntLiteral", false, (6, 7), []⟩] := by
    decide +kernel
  obtain ⟨b, hread, hmap⟩ := Option.map_eq_some_iff.mp hextents
  obtain ⟨n, hn, hextent⟩ : ∃ n ∈ (Node.stmt (.block b)).preOrder,
      extent n = ⟨"print", true, (0, 5), [(6, 7)]⟩ := by
    rw [← List.mem_map, hmap]
    simp
  obtain ⟨c, cs, hchildren, hc, -⟩ := List.map_eq_cons_iff.mp (congrArg Extent.below hextent)
  refine ⟨b, n, c, toOption_eq_some_iff.mp hread, hn, by simp [hchildren],
    congrArg Extent.name hextent, fun hinside => ?_⟩
  have hstop := hinside.stop_le
  have hstop' : n.span.stop.offset = 5 := congrArg (fun x => x.bytes.2) hextent
  rw [hstop', (Prod.mk.inj hc).2] at hstop
  exact absurd hstop (by decide)

end Reading
end SlotTree

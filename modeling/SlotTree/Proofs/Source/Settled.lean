import SlotTree.Proofs.Reading.Phrase
import SlotTree.Proofs.Token.Scanned
import SlotTree.Proofs.Tree.Bind

/-!
# Trees as reading leaves them

A tree that was read has a shape that trees in general do not have.  Its slots hold what
the phrases of the source put there and have the types of fresh slots, its names are
names, its numbers can be written down again, and a callable has been called unless it is
`print` standing alone.  Expressions of this shape are called settled, and what a phrase
denotes is settled whenever its tokens come from the scanner (`Derives.settled`).

There is one exception.  The name of a type is an expression too, but one that fits no
slot that a script can put it in, so it never becomes a part of anything larger.
-/

namespace SlotTree

/-- The text is a name that is not reserved. -/
structure IsName (id : String) : Prop where
  word : Lexeme.IsWord id.toList
  free : Reserved.ofWord? id = none

instance (id : String) : Decidable (IsName id) :=
  decidable_of_iff (Lexeme.IsWord id.toList ∧ Reserved.ofWord? id = none)
    ⟨fun h => ⟨h.1, h.2⟩, fun h => ⟨h.word, h.free⟩⟩

/-- The types that can be declared: the plain types of values, and lists of such types. -/
inductive Ty.Declarable : Ty → Prop where
  | plain {c : Class} (listed : c ∈ [Class.object, .bool, .noneType, .int, .float, .str]) :
      Declarable (.plain c)
  | list {t : Ty} (item : Declarable t) : Declarable (.list t)

/-- An expression as reading leaves it. -/
inductive Settled : Expr → Prop where
  | literal {v : Literal} {span : Span} (writable : v.Writable) : Settled (.ofLiteral v span)
  | name {id : String} {span : Span} (isName : IsName id)
      (isVariable : Registry.default.find? id = none) : Settled (.ofName id span)
  | mention {span : Span} : Settled (.emptyPrint span)
  | print {objects : List Expr} {options : PrintOptions} {span : Span}
      (items : ∀ e ∈ objects, Settled e) (parts : ∀ k e, options k = some e → Settled e)
      (fits : ∀ k e, options k = some e → e.valueType.fits k.type = true) :
      Settled (.printWith objects options true span)
  | call {func : Expr} {args : List Expr} {keywords : List (String × Expr)} {span : Span}
      (callee : Settled func) (isCalled : func.isInvoked? ≠ some false)
      (items : ∀ e ∈ args, Settled e) (parts : ∀ passed ∈ keywords, Settled passed.2)
      (names : ∀ passed ∈ keywords, IsName passed.1) (distinct : (keywords.map Prod.fst).Nodup) :
      Settled (.callWith func args keywords true span)

/-- A statement as reading leaves it. -/
inductive SettledStmt : Stmt → Prop where
  | expression {e : Expr} {span : Span} (value : Settled e) :
      SettledStmt (.expression (.holding (.plain .object) e) span)
  | declaration {id : String} {t : Ty} {at_ span : Span} (isName : IsName id)
      (type : t.Declarable) :
      SettledStmt (.declaration (.ofLiteral (.str id)) (Stmt.typeSlot t at_ none) span)
  | definition {id : String} {t : Ty} {at_ span : Span} {e : Expr} (isName : IsName id)
      (type : t.Declarable) (value : Settled e) (fits : e.valueType.fits t = true) :
      SettledStmt (.definition (.ofLiteral (.str id))
        (Stmt.typeSlot t at_ (some (.holding t e))) span)

/-! ## Types -/

namespace Ty.Declarable

theorem head_mem {t : Ty} (h : t.Declarable) :
    t.head ∈ [Class.object, .bool, .noneType, .int, .float, .str, .list] := by
  cases h with
  | plain listed => exact List.mem_append_left [Class.list] listed
  | list item =>
    rw [Ty.head_list]
    decide

theorem head_ne_type {t : Ty} (h : t.Declarable) : (t.head == .type) = false := by
  have hmem := h.head_mem
  generalize t.head = c at hmem
  revert c
  decide

theorem isLiteral_head {t : Ty} (h : t.Declarable) : t.head.isLiteral = false := by
  have hmem := h.head_mem
  generalize t.head = c at hmem
  revert c
  decide

/-- A type that a bare name stands for can be declared. -/
theorem wrap {c : Class} (h : c ∈ [Class.object, .bool, .int, .float, .str, .list]) :
    (Ty.wrap c).Declarable := by
  simp only [List.mem_cons, List.not_mem_nil, or_false] at h
  rcases h with rfl | rfl | rfl | rfl | rfl | rfl
  · exact .plain (by simp)
  · exact .plain (by simp)
  · exact .plain (by simp)
  · exact .plain (by simp)
  · exact .plain (by simp)
  · exact .list (.plain (by simp))

end Ty.Declarable

namespace Reading

/-- An annotation denotes a type that can be declared. -/
theorem DerivesType.declarable {ts : List Token} {t : Ty} (h : DerivesType ts t) :
    t.Declarable := by
  induction h with
  | symbol _ builtin isType =>
    rcases Registry.find?_default builtin with ⟨c, hc, rfl⟩ | rfl | ⟨-, rfl⟩
    · obtain rfl := Option.some.inj isType
      exact .wrap hc
    · cases isType
    · cases isType
  | noneType _ => exact .plain (by simp)
  | subscript _ _ _ _ _ _ ih => exact .list ih

end Reading

/-! ## Expressions -/

/-- Every settled expression may stand where an object is wanted. -/
theorem Settled.fits_object {e : Expr} (h : Settled e) :
    e.valueType.fits (.plain .object) = true := by
  cases h with
  | literal writable =>
    rename_i v span
    cases v <;> rfl
  | _ => rfl

/-- A type is no value of a slot for objects or for values of a declared type. -/
theorem not_fits_of_type {t : Ty} {e : Expr} (h : (t.head == .type) = false)
    (hfits : e.valueType.fits t = true) : ∀ type span, e ≠ .type type span := by
  rintro type span rfl
  have hhead : (t.head == .type) = true := hfits
  rw [h] at hhead
  cases hhead

/-- The one settled expression that can be called and has not been is `print` alone. -/
theorem Settled.eq_emptyPrint {e : Expr} (h : Settled e) (hcalled : e.isInvoked? = some false) :
    ∃ span, e = .emptyPrint span := by
  cases h with
  | mention => exact ⟨_, rfl⟩
  | _ => cases hcalled

namespace Reading

/-- The expression is a type, or settled. -/
def SettledOrType (e : Expr) : Prop := (∃ t span, e = .type t span) ∨ Settled e

theorem SettledOrType.settled {e : Expr} (h : SettledOrType e) {t : Ty}
    (ht : (t.head == .type) = false) (hfits : e.valueType.fits t = true) : Settled e := by
  rcases h with ⟨type, span, rfl⟩ | h
  · exact absurd rfl (not_fits_of_type ht hfits type span)
  · exact h

/-- The argument has a settled value and is passed under a name, if under any. -/
def SettledArgument (a : Argument) : Prop :=
  SettledOrType a.value ∧ ∀ keyword ∈ a.keyword, IsName keyword

/-- What a phrase denotes is settled. -/
def Phrase.Settled : Phrase → Prop
  | .expr e => SettledOrType e
  | .argument a => SettledArgument a
  | .arguments args => ∀ a ∈ args, SettledArgument a

theorem settled_mention {t : Token} (h : t.Genuine) (hkind : t.kind = .identifier) :
    SettledOrType (mention t) := by
  obtain ⟨hword, hfree⟩ := h.name hkind
  unfold mention
  split
  · next constructor hbuiltin =>
    rcases Registry.find?_default hbuiltin with ⟨c, -, rfl⟩ | rfl | ⟨-, rfl⟩
    · exact Or.inl ⟨_, _, rfl⟩
    · exact Or.inr (.literal trivial)
    · exact Or.inr .mention
  · next hvariable => exact Or.inr (.name ⟨hword, hfree⟩ hvariable)

/-- What arguments are bound to is settled afterwards. -/
theorem settled_of_bindArguments {left callee bound : Expr} {stop closing : Position}
    {args : List Argument} (hleft : SettledOrType left)
    (hargs : ∀ a ∈ args, SettledArgument a) (hcallee : calleeOf left stop = .ok callee)
    (hbind : bindArguments closing callee args = .ok bound) : Settled bound.markInvoked := by
  have hvalue : ∀ e ∈ args.map Argument.value, SettledOrType e := by
    intro e he
    obtain ⟨a, ha, rfl⟩ := List.mem_map.mp he
    exact (hargs a ha).1
  unfold calleeOf at hcallee
  split at hcallee
  · next hinvoked =>
    -- only `print` alone takes arguments itself
    have hinvoked' : left.isInvoked? = some false := by simpa using hinvoked
    obtain rfl := Except.ok.inj hcallee
    obtain ⟨span, rfl⟩ : ∃ span, left = .emptyPrint span := by
      rcases hleft with ⟨t, span, rfl⟩ | hleft
      · cases hinvoked'
      · exact hleft.eq_emptyPrint hinvoked'
    obtain ⟨objects, options, invoked, rfl, hobjects, hoptions⟩ :=
      Expr.printWith_of_bindArguments_emptyPrint hbind
    rw [Expr.markInvoked_printWith]
    refine .print (fun e he => ?_) (fun k e he => ?_) (fun k e he => (hoptions k e he).2)
    · obtain ⟨hmem, hfits⟩ := hobjects e he
      exact (hvalue e hmem).settled rfl hfits
    · obtain ⟨hmem, hfits⟩ := hoptions k e he
      exact (hvalue e hmem).settled (by cases k <;> rfl) hfits
  · next hinvoked =>
    have hinvoked' : left.isInvoked? ≠ some false := by simpa using hinvoked
    split at hcallee
    · next call hcall =>
      obtain rfl := Except.ok.inj hcallee
      obtain ⟨hfits, -⟩ := Expr.callOf_eq_ok_iff.mp hcall
      obtain ⟨args', keywords, invoked, rfl, hdistinct, hargs', hkeywords⟩ :=
        Expr.callWith_of_bindArguments_callOf hcall hbind
      rw [Expr.markInvoked_callWith]
      refine .call (hleft.settled rfl hfits) hinvoked' (fun e he => ?_) (fun p hp => ?_)
        (fun p hp => ?_) hdistinct
      · obtain ⟨hmem, hfits⟩ := hargs' e he
        exact (hargs _ hmem).1.settled rfl hfits
      · obtain ⟨hmem, hfits⟩ := hkeywords p hp
        exact (hargs _ hmem).1.settled rfl hfits
      · exact (hargs _ (hkeywords p hp).1).2 p.1 rfl
    · cases hcallee

/-- **What a phrase of scanned tokens denotes is settled.** -/
theorem Derives.settled {ts : List Token} {p : Phrase} (h : Derives ts p)
    (hts : ∀ t ∈ ts, t.Genuine) : p.Settled := by
  induction h with
  | constant value =>
    refine Or.inr (.literal ?_)
    cases value with
    | true_ | false_ | none_ => trivial
    | number kind value => exact (hts _ (by simp)).number kind _ value
  | text _ => exact Or.inr (.literal trivial)
  | name kind => exact settled_mention (hts _ (by simp)) kind
  | group _ _ _ ih => exact ih fun t ht => hts t (by simp [ht])
  | call _ _ _ _ called binds ih₁ ih₂ =>
    refine Or.inr (settled_of_bindArguments (ih₁ fun t ht => hts t (by simp [ht])) ?_ called binds)
    exact ih₂ fun t ht => hts t (by simp [ht])
  | positional _ ih => exact ⟨ih hts, by simp⟩
  | keyword kind _ _ ih =>
    refine ⟨ih fun t ht => hts t (by simp [ht]), ?_⟩
    rintro keyword hkeyword
    obtain rfl := Option.some.inj hkeyword
    obtain ⟨hword, hfree⟩ := (hts _ List.mem_cons_self).name kind
    exact ⟨hword, hfree⟩
  | noArguments => simp [Phrase.Settled]
  | lastArgument _ ih =>
    intro a ha
    rw [List.mem_singleton.mp ha]
    exact ih hts
  | moreArguments _ _ _ ih₁ ih₂ =>
    intro a ha
    rcases List.mem_cons.mp ha with rfl | ha
    · exact ih₁ fun t ht => hts t (by simp [ht])
    · exact ih₂ (fun t ht => hts t (by simp [ht])) a ha

/-- What a statement of scanned tokens denotes is settled. -/
theorem DerivesStmt.settled {ts : List Token} {s : Stmt} (h : DerivesStmt ts s)
    (hts : ∀ t ∈ ts, t.Genuine) : SettledStmt s := by
  cases h with
  | expression value fits => exact .expression ((value.settled hts).settled rfl fits)
  | declaration kind _ declared =>
    obtain ⟨hword, hfree⟩ := (hts _ List.mem_cons_self).name kind
    exact .declaration ⟨hword, hfree⟩ declared.declarable
  | definition kind _ declared _ value fits =>
    obtain ⟨hword, hfree⟩ := (hts _ List.mem_cons_self).name kind
    have hvalue := value.settled fun t ht => hts t (by simp [ht])
    exact .definition ⟨hword, hfree⟩ declared.declarable
      (hvalue.settled declared.declarable.head_ne_type fits) fits

/-- What a script of scanned tokens denotes is settled. -/
theorem DerivesScript.settled {ts : List Token} {body : List Stmt} (h : DerivesScript ts body)
    (hts : ∀ t ∈ ts, t.Genuine) : ∀ s ∈ body, SettledStmt s := by
  induction h with
  | nil => simp
  | last stmt =>
    intro s hs
    rw [List.mem_singleton.mp hs]
    exact stmt.settled hts
  | cons stmt _ _ ih =>
    intro s hs
    rcases List.mem_cons.mp hs with rfl | hs
    · exact stmt.settled fun t ht => hts t (by simp [ht])
    · exact ih (fun t ht => hts t (by simp [ht])) s hs

end Reading
end SlotTree

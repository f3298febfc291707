import Mathlib.Data.List.Chain
import SlotTree.Proofs.Source.Script

/-!
# Annotations and what they say

    annotation :=  "object" | "bool" | "int" | "float" | "str" | "list" | "None"
                |  "list" "[" annotation "]"

This is how a type is written in an annotation (`SpellsType`).  `list` by itself stands for a list
of objects, and so does what is written for that type; apart from this a type has one spelling,
and an annotation that is spelled like this says no more and no less than the type that it denotes.

The reader takes every annotation of this form, but not only these.  It asks of what stands in
front of a bracket that it is a list type, and `list[int]` is one just as well as `list` is.  A
second pair of brackets is read as the items of the list once more, and what stood in the first
pair is gone: `list[int][str]` is a list of texts (`second_brackets_replace_items`).  Nothing else
is lost.  An annotation says what its type says exactly if no bracket opens directly behind one
that closes (`typeExpr_lossless_iff`).
-/

namespace SlotTree

open Reading (DerivesType typeExpr)

/-! ## Spelling a type -/

/-- The names that stand for a type, with its class. -/
def typeNames : List (String × Class) :=
  [("object", .object), ("bool", .bool), ("int", .int), ("float", .float), ("str", .str),
    ("list", .list)]

/-- The tokens are an annotation that is spelled as annotations are meant to be. -/
inductive SpellsType : List Bare → Ty → Prop where
  | name {word : String} {c : Class} (listed : (word, c) ∈ typeNames) :
      SpellsType [(.identifier, word)] (.wrap c)
  | none : SpellsType [(.reserved .none_, "None")] (.plain .noneType)
  | items {bs : List Bare} {t : Ty} (item : SpellsType bs t) :
      SpellsType ((.identifier, "list") :: (.openBracket, "[") :: (bs ++ [(.closeBracket, "]")]))
        (.list t)

/-- The text of the tokens of a kind that have only one. -/
def TokenKind.spelling? : TokenKind → Option String
  | .openBracket => some "["
  | .closeBracket => some "]"
  | .reserved .none_ => some "None"
  | _ => none

/-- What a token says in an annotation.  Brackets and `None` are told by their kind, whatever text
a token was given that did not come from the scanner. -/
def Token.said (t : Token) : Bare := (t.kind, t.kind.spelling?.getD t.text)

/-- An annotation with the items of every list written out. -/
def inFull : List Bare → List Bare
  | [] => []
  | b :: bs =>
    if b = (.identifier, "list") ∧ bs.head?.map Prod.fst ≠ some .openBracket then
      (Ty.wrap .list).words ++ inFull bs
    else b :: inFull bs

/-- No bracket opens directly behind one that closes. -/
def BracketedOnce (bs : List Bare) : Prop :=
  bs.IsChain fun b b' => ¬ (b.1 = .closeBracket ∧ b'.1 = .openBracket)

namespace SpellsType

theorem bracketedOnce {bs : List Bare} {t : Ty} (h : SpellsType bs t) : BracketedOnce bs := by
  induction h with
  | name _ => exact .singleton _
  | none => exact .singleton _
  | @items bs t _ ih =>
    refine .cons_cons (by simp) (List.isChain_cons.mpr ⟨by simp, ?_⟩)
    exact List.isChain_append.mpr ⟨ih, .singleton _, by simp⟩

theorem inFull_append_closing (bs : List Bare) :
    inFull (bs ++ [(.closeBracket, "]")]) = inFull bs ++ [(.closeBracket, "]")] := by
  induction bs with
  | nil => rfl
  | cons b bs ih =>
    have hhead : ((bs ++ [(TokenKind.closeBracket, "]")]).head?.map Prod.fst ≠
        some .openBracket) ↔ bs.head?.map Prod.fst ≠ some .openBracket := by
      cases bs <;> simp
    simp only [List.cons_append, inFull, hhead, ih]
    split <;> simp

/-- **Written out in full an annotation has the tokens that its type is written with.** -/
theorem inFull_eq_words {bs : List Bare} {t : Ty} (h : SpellsType bs t) : inFull bs = t.words := by
  induction h with
  | @name word c listed =>
    simp only [typeNames, List.mem_cons, Prod.mk.injEq, List.not_mem_nil, or_false] at listed
    rcases listed with ⟨rfl, rfl⟩ | ⟨rfl, rfl⟩ | ⟨rfl, rfl⟩ | ⟨rfl, rfl⟩ | ⟨rfl, rfl⟩ | ⟨rfl, rfl⟩
    all_goals decide
  | none => rfl
  | @items bs t _ ih => simp [inFull, inFull_append_closing, ih, Ty.words]

end SpellsType

/-! ## What is read -/

/-- The types that a name can stand for in an annotation. -/
theorem mem_typeNames_of_find? {name : String} {constructor : Constructor} {span : Span} {t : Ty}
    (h : Registry.default.find? name = some constructor)
    (htype : (constructor span).asType? = some t) : ∃ c, (name, c) ∈ typeNames ∧ t = .wrap c := by
  rw [Registry.find?, Option.map_eq_some_iff] at h
  obtain ⟨⟨key, made⟩, hfind, rfl⟩ := h
  obtain rfl : key = name := by simpa using List.find?_some hfind
  have hmem := List.mem_of_find?_eq_some hfind
  simp only [Registry.default, List.mem_cons, Prod.mk.injEq, List.not_mem_nil, or_false] at hmem
  rcases hmem with h | h | h | h | h | h | h | h
  all_goals obtain ⟨rfl, rfl⟩ := h
  · exact ⟨.object, by decide, (Option.some.inj htype).symm⟩
  · exact ⟨.bool, by decide, (Option.some.inj htype).symm⟩
  · exact ⟨.int, by decide, (Option.some.inj htype).symm⟩
  · exact ⟨.float, by decide, (Option.some.inj htype).symm⟩
  · exact ⟨.str, by decide, (Option.some.inj htype).symm⟩
  · exact ⟨.list, by decide, (Option.some.inj htype).symm⟩
  · cases htype
  · cases htype

/-- Only `list` names a list type. -/
theorem eq_list_of_mem_typeNames {name : String} {c : Class} (h : (name, c) ∈ typeNames)
    (hlist : (Ty.wrap c).head = .list) : name = "list" := by
  simp only [typeNames, List.mem_cons, Prod.mk.injEq, List.not_mem_nil, or_false] at h
  rcases h with ⟨rfl, rfl⟩ | ⟨rfl, rfl⟩ | ⟨rfl, rfl⟩ | ⟨rfl, rfl⟩ | ⟨rfl, rfl⟩ | ⟨rfl, rfl⟩
  iterate 5
    · cases hlist
  · rfl

theorem find?_of_mem_typeNames {name : String} {c : Class} (h : (name, c) ∈ typeNames) :
    Registry.default.find? name = some (Registry.typeConstructor c) := by
  simp only [typeNames, List.mem_cons, Prod.mk.injEq, List.not_mem_nil, or_false] at h
  rcases h with ⟨rfl, rfl⟩ | ⟨rfl, rfl⟩ | ⟨rfl, rfl⟩ | ⟨rfl, rfl⟩ | ⟨rfl, rfl⟩ | ⟨rfl, rfl⟩
  all_goals rfl

theorem Token.kind_of_said {t : Token} {b : Bare} (h : t.said = b) : t.kind = b.1 :=
  congrArg Prod.fst h

theorem Token.said_of_identifier {t : Token} (h : t.kind = .identifier) :
    t.said = (.identifier, t.text) := by
  simp [said, h, TokenKind.spelling?]

/-- **An annotation in which no brackets are doubled spells its type.** -/
theorem Reading.DerivesType.spells {ts : List Token} {t : Ty} (h : DerivesType ts t)
    (honce : BracketedOnce (ts.map Token.said)) : SpellsType (ts.map Token.said) t := by
  induction h with
  | symbol kind builtin isType =>
    obtain ⟨c, hlisted, rfl⟩ := mem_typeNames_of_find? builtin isType
    rw [List.map_singleton, Token.said_of_identifier kind]
    exact .name hlisted
  | noneType kind =>
    rw [List.map_singleton, Token.said, kind]
    exact .none
  | @subscript ts us opening closing left item whole isList openKind inner closeKind _ ih =>
    have hopening : opening.said = (.openBracket, "[") := by rw [Token.said, openKind]; rfl
    have hclosing : closing.said = (.closeBracket, "]") := by rw [Token.said, closeKind]; rfl
    simp only [List.map_append, List.map_cons, List.map_nil, hopening, hclosing] at honce ⊢
    obtain ⟨-, hbehind, hseam⟩ := List.isChain_append.mp honce
    -- what stands in front of the brackets is `list`, or it ends with brackets of its own
    cases whole with
    | @symbol t constructor _ kind builtin isType =>
      obtain ⟨c, hlisted, rfl⟩ := mem_typeNames_of_find? builtin isType
      have hlist : t.said = (.identifier, "list") := by
        rw [Token.said_of_identifier kind, eq_list_of_mem_typeNames hlisted isList]
      rw [List.map_singleton, hlist]
      have hinside : BracketedOnce (us.map Token.said) :=
        (List.isChain_append.mp (List.isChain_cons.mp hbehind).2).1
      exact .items (ih hinside)
    | noneType _ => cases isList
    | @subscript ts us opening closing' _ _ _ _ _ _ closeKind' =>
      have hlast : closing'.said ∈
          ((ts ++ opening :: (us ++ [closing'])).map Token.said).getLast? := by
        simp [List.getLast?_cons]
      exact absurd ⟨closeKind', rfl⟩ (hseam closing'.said hlast (.openBracket, "[") rfl)

/-- Tokens that spell a type are an annotation that denotes it. -/
theorem SpellsType.derives {bs : List Bare} {t : Ty} (h : SpellsType bs t) :
    ∀ {ts : List Token}, ts.map Token.said = bs → DerivesType ts t := by
  induction h with
  | @name word c listed =>
    intro ts hts
    obtain ⟨t, rfl, ht⟩ := List.map_eq_singleton_iff.mp hts
    have hkind : t.kind = .identifier := Token.kind_of_said ht
    rw [Token.said_of_identifier hkind] at ht
    have hbuiltin : Registry.default.find? t.text = some (Registry.typeConstructor c) := by
      rw [(Prod.mk.inj ht).2]
      exact find?_of_mem_typeNames listed
    exact .symbol hkind hbuiltin rfl
  | none =>
    intro ts hts
    obtain ⟨t, rfl, ht⟩ := List.map_eq_singleton_iff.mp hts
    exact .noneType (Token.kind_of_said ht)
  | items _ ih =>
    intro ts hts
    obtain ⟨list, rest, rfl, hlist, hrest⟩ := List.map_eq_cons_iff.mp hts
    obtain ⟨opening, rest, rfl, hopening, hrest⟩ := List.map_eq_cons_iff.mp hrest
    obtain ⟨us, last, rfl, hus, hlast⟩ := List.map_eq_append_iff.mp hrest
    obtain ⟨closing, rfl, hclosing⟩ := List.map_eq_singleton_iff.mp hlast
    have hkind : list.kind = .identifier := Token.kind_of_said hlist
    rw [Token.said_of_identifier hkind] at hlist
    have hbuiltin : Registry.default.find? list.text = some (Registry.typeConstructor .list) := by
      rw [(Prod.mk.inj hlist).2]
      rfl
    have hwhole : DerivesType [list] (Ty.wrap .list) := .symbol hkind hbuiltin rfl
    exact .subscript hwhole rfl (Token.kind_of_said hopening) (ih hus) (Token.kind_of_said hclosing)

/-- What cannot belong to an annotation in front of it. -/
theorem typePower?_eq_none {kind : TokenKind}
    (h : kind ∉ [.openBracket, .pipe, .identifier, .reserved .none_]) :
    Grammar.script.typePower? kind = none := by
  simp only [List.mem_cons, List.not_mem_nil, or_false, not_or] at h
  obtain ⟨hbracket, hpipe, hname, hnone⟩ := h
  have hfollowing : Grammar.script.typeFollowing? kind = none := by
    show Grammar.scriptTypeFollowing? kind = none
    rw [Grammar.scriptTypeFollowing?]
    · exact hbracket
    · exact hpipe
  have hopening : Grammar.script.typeOpening? kind = none := by
    show Grammar.scriptTypeOpening? kind = none
    rw [Grammar.scriptTypeOpening?]
    · exact hname
    · exact hnone
  simp [Grammar.typePower?, hfollowing, hopening]

/-- The tokens say what the type says: they spell it, and where the type is written and scanned the
same tokens come out, with the items of every list written out. -/
structure SaysAsMuch (ts : List Token) (t : Ty) : Prop where
  spells : SpellsType (ts.map Token.said) t
  rewritten : ∀ file, ∃ text ws newline last, t.written? = some text ∧
    tokenize text file = .ok (ws ++ [newline] ++ [last]) ∧
    ws.map Token.bare = inFull (ts.map Token.said) ∧ newline.kind = .newline ∧ last.kind = .eof

theorem SpellsType.saysAsMuch {ts : List Token} {t : Ty} (h : SpellsType (ts.map Token.said) t) :
    SaysAsMuch ts t := by
  refine ⟨h, fun file => ?_⟩
  obtain ⟨cs, hwritten⟩ := (h.derives rfl).declarable.written
  obtain ⟨ws, newline, last, htokens, hws, hnewline, hlast⟩ :=
    tokenize_line hwritten.fragment false file
  rw [layOut_singleton hwritten.fragment false] at htokens
  refine ⟨_, ws, newline, last, hwritten.renders, ?_, ?_, hnewline, hlast⟩
  · simpa using htokens
  · rw [hws, h.inFull_eq_words]

/-! ## Reading without loss -/

/-- **An annotation is read without loss exactly if no brackets in it are doubled.**  Wherever an
annotation is read, its tokens spell the type that was read, and are the tokens that the type is
written with up to `list` for a list of objects, if and only if no bracket opens directly behind
one that closes.  And every annotation that is spelled as annotations are meant to be is read as
the type that it spells, unless what follows is a bracket, `|`, a name or `None`. -/
theorem typeExpr_lossless_iff (c : Cursor) :
    (∀ (c' : Cursor) (t : Ty) (span : Span), typeExpr .default c = (.ok (t, span), c') →
      ∃ ts, c.Passes ts c' ∧ (SaysAsMuch ts t ↔ BracketedOnce (ts.map Token.said))) ∧
    ∀ (ts rest : List Token) (t : Ty), SpellsType (ts.map Token.said) t →
      c.ahead = ts ++ rest →
      (c.skip ts.length).kind ∉ [.openBracket, .pipe, .identifier, .reserved .none_] →
      ∃ span, typeExpr .default c = (.ok (t, span), c.skip ts.length) := by
  refine ⟨fun c' t span hread => ?_, fun ts rest t hspells hahead hfollows => ?_⟩
  · obtain ⟨first, more, hpasses, hderives, -⟩ := Reading.typeExpr_sound hread
    refine ⟨first :: more, hpasses, fun h => h.spells.bracketedOnce, fun honce => ?_⟩
    exact (hderives.spells honce).saysAsMuch
  · have hderives := hspells.derives rfl
    obtain ⟨first, more, rfl⟩ := DerivesType.exists_eq_cons hderives
    exact ⟨_, Reading.typeExpr_run hderives hahead (typePower?_eq_none hfollows)⟩

/-- A token that says something, without a place in a source. -/
def Token.saying (b : Bare) : Token := ⟨b.1, b.2, .detached⟩

/-- Behind a list of lists of `None` a name would belong to the annotation, and a comma does not. -/
theorem typeExpr_lossless_iff_nested :
    let t : Ty := .list (.list (.plain .noneType))
    let ts := t.words.map Token.saying
    let c := Cursor.ofTokens (ts ++ [Token.saying (.comma, ",")]) "script"
    (∃ span, typeExpr .default c = (.ok (t, span), c.skip 7)) ∧
      ∃ us, c.Passes us (c.skip 7) ∧ SaysAsMuch us t := by
  intro t ts c
  have hspells : SpellsType (ts.map Token.said) t := .items (.items .none)
  obtain ⟨span, hspan⟩ :=
    (typeExpr_lossless_iff c).2 ts [Token.saying (.comma, ",")] t hspells rfl (by decide)
  obtain ⟨us, hpasses, hiff⟩ := (typeExpr_lossless_iff c).1 (c.skip 7) t span hspan
  refine ⟨⟨span, hspan⟩, us, hpasses, hiff.mpr ?_⟩
  have hus : us = ts := by
    have hahead : ts ++ [Token.saying (.comma, ",")] = us ++ [Token.saying (.comma, ",")] :=
      hpasses.ahead
    exact (List.append_cancel_right hahead).symm
  rw [hus]
  exact hspells.bracketedOnce

/-- What the tokens of `list[int][str]` say. -/
def doubledBrackets : List Bare :=
  [(.identifier, "list"), (.openBracket, "["), (.identifier, "int"), (.closeBracket, "]"),
    (.openBracket, "["), (.identifier, "str"), (.closeBracket, "]")]

/-- Of two pairs of brackets the second counts: `list[int][str]` is read to its end and is a list
of texts, which its tokens do not spell. -/
theorem second_brackets_replace_items :
    let ts := doubledBrackets.map Token.saying
    let c := Cursor.ofTokens ts "script"
    ((tokenize "list[int][str]" "script").toOption.map fun tokens => tokens.map Token.bare) =
        some (doubledBrackets ++ [(.newline, ""), (.eof, "")]) ∧
      (∃ span, typeExpr .default c = (.ok (.list (.plain .str), span), c.skip 7)) ∧
      c.Passes ts (c.skip 7) ∧ ¬ SpellsType (ts.map Token.said) (.list (.plain .str)) := by
  intro ts c
  refine ⟨by decide +kernel, ⟨_, rfl⟩, .of_ahead rfl, fun hspells => ?_⟩
  have honce : BracketedOnce doubledBrackets := hspells.bracketedOnce
  revert honce
  simp [BracketedOnce, doubledBrackets]

end SlotTree

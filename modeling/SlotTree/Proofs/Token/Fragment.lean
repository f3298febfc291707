import SlotTree.Proofs.Token.Quotes
import SlotTree.Text.Blank

/-!
# Fragments of written source

A fragment is a text within one line together with what its tokens say (`Fragment`).  It
says everything about the text that the scanner has to know to get past it: that it breaks
into these tokens whatever separates it from what follows, how it starts and ends, and
that the brackets in it are closed.

Fragments are put together in three ways only.  Two of them stand side by side with a
separator between them, which is a comma, the colon of an annotation or the equals sign
of a definition (`Fragment.glue`); one stands in brackets behind another
(`Fragment.enclosed`); and one is passed under a keyword (`Fragment.keyword`).
-/

namespace SlotTree

open Lexeme (Delimited IsWord isLayout nameKind)

/-- What a token says, without the place where it stands. -/
abbrev Bare : Type := TokenKind × String

/-- What a token says. The text of a token that ends a line or the script only tells where
the end comes from, and is left out. -/
def Token.bare (t : Token) : Bare :=
  (t.kind, if t.kind = .newline ∨ t.kind = .eof then "" else t.text)

/-- The depth of brackets after tokens. -/
def depthThrough (bs : List Bare) (depth : Nat) : Nat :=
  bs.foldl (fun depth b => b.1.depthAfter depth) depth

theorem depthThrough_append (us vs : List Bare) (depth : Nat) :
    depthThrough (us ++ vs) depth = depthThrough vs (depthThrough us depth) :=
  List.foldl_append

@[simp] theorem depthThrough_cons (b : Bare) (bs : List Bare) (depth : Nat) :
    depthThrough (b :: bs) depth = depthThrough bs (b.1.depthAfter depth) := rfl

@[simp] theorem depthThrough_nil (depth : Nat) : depthThrough [] depth = depth := rfl

/-! ## Breaking a text into tokens -/

/-- In front of `rest` the text breaks into lexemes with the given tokens. -/
inductive Lexes (rest : List Char) : List Char → List Bare → Prop where
  | done : Lexes rest [] []
  | token {chars cs : List Char} {kind : TokenKind} {text : String} {bs : List Bare}
      (reads : Lexeme.next (chars ++ (cs ++ rest)) = .ok ⟨.token kind text, chars⟩)
      (more : Lexes rest cs bs) : Lexes rest (chars ++ cs) ((kind, text) :: bs)
  | trivia {chars cs : List Char} {bs : List Bare}
      (reads : Lexeme.next (chars ++ (cs ++ rest)) = .ok ⟨.trivia, chars⟩)
      (more : Lexes rest cs bs) : Lexes rest (chars ++ cs) bs

namespace Lexes

theorem append {rest cs ds : List Char} {us vs : List Bare} (h : Lexes (ds ++ rest) cs us)
    (h' : Lexes rest ds vs) : Lexes rest (cs ++ ds) (us ++ vs) := by
  induction h with
  | done => exact h'
  | token reads more ih =>
    rw [List.append_assoc]
    exact .token (by rwa [List.append_assoc]) ih
  | trivia reads more ih =>
    rw [List.append_assoc]
    exact .trivia (by rwa [List.append_assoc]) ih

theorem single {rest chars : List Char} {kind : TokenKind} {text : String}
    (h : Lexeme.next (chars ++ rest) = .ok ⟨.token kind text, chars⟩) :
    Lexes rest chars [(kind, text)] := by
  have hone : Lexes rest (chars ++ []) [(kind, text)] := .token h .done
  rwa [List.append_nil] at hone

theorem bracket {c : Char} {kind : TokenKind} {rest : List Char}
    (h : (c, kind) ∈ Lexeme.brackets) (hrest : rest.head? ≠ some '=') :
    Lexes rest [c] [(kind, String.ofList [c])] :=
  single (Lexeme.next_bracket h hrest)

theorem blank {rest : List Char} (h : ∀ c ∈ rest.head?, isLayout c = false) :
    Lexes rest [' '] [] := by
  have hspace : ∀ c ∈ rest.head?, Lexeme.isSpace c = false := by
    intro c hc
    have hlayout := h c hc
    simp only [isLayout, Bool.or_eq_false_iff] at hlayout
    exact hlayout.1.1.1
  have hone : Lexes rest ([' '] ++ []) [] := .trivia (Lexeme.next_blank hspace) .done
  exact hone

/-- A character that is a token of its own in front of other tokens. -/
theorem bracket_cons {c : Char} {kind : TokenKind} {rest ds : List Char} {vs : List Bare}
    (h : (c, kind) ∈ Lexeme.brackets) (hds : (ds ++ rest).head? ≠ some '=')
    (h' : Lexes rest ds vs) : Lexes rest (c :: ds) ((kind, String.ofList [c]) :: vs) :=
  append (bracket h hds) h'

end Lexes

/-! ## Fragments -/

/-- The text starts with something that is neither layout nor an equals sign. -/
def Opens (cs : List Char) : Prop := ∃ c ds, cs = c :: ds ∧ isLayout c = false ∧ c ≠ '='

/-- A fragment can end in front of the text: a delimiter follows, but no equals sign. -/
def Separated (rest : List Char) : Prop := Delimited rest ∧ rest.head? ≠ some '='

theorem Separated.nil : Separated [] := ⟨Delimited.nil, by simp⟩

theorem Separated.cons {c : Char} {rest : List Char} (h : c ∈ Lexeme.delimiters) (hne : c ≠ '=') :
    Separated (c :: rest) :=
  ⟨Delimited.cons h, by simpa using hne⟩

/-- The text ends in something visible. -/
def Closes (cs : List Char) : Prop := ∃ ds c, cs = ds ++ [c] ∧ Text.isBlank c = false

theorem Closes.append {ds : List Char} (h : Closes ds) (cs : List Char) : Closes (cs ++ ds) := by
  obtain ⟨es, c, rfl, hc⟩ := h
  exact ⟨cs ++ es, c, (List.append_assoc _ _ _).symm, hc⟩

theorem Closes.of_forall {cs : List Char} (hne : cs ≠ [])
    (h : ∀ c ∈ cs, Text.isBlank c = false) : Closes cs := by
  rcases List.eq_nil_or_concat cs with rfl | ⟨ds, c, rfl⟩
  · exact absurd rfl hne
  · exact ⟨ds, c, List.concat_eq_append, h c (by simp)⟩

theorem Opens.append {cs : List Char} (h : Opens cs) (rest : List Char) : Opens (cs ++ rest) := by
  obtain ⟨c, ds, rfl, hc⟩ := h
  exact ⟨c, ds ++ rest, rfl, hc⟩

theorem Opens.head?_ne {cs : List Char} (h : Opens cs) : cs.head? ≠ some '=' := by
  obtain ⟨c, ds, rfl, -, hc⟩ := h
  simpa using hc

theorem Opens.not_layout {cs : List Char} (h : Opens cs) : ∀ c ∈ cs.head?, isLayout c = false := by
  obtain ⟨c, ds, rfl, hc, -⟩ := h
  intro d hd
  obtain rfl : c = d := by simpa using hd
  exact hc

/-- A text within one line, with what its tokens say. -/
structure Fragment (cs : List Char) (bs : List Bare) : Prop where
  lexes : ∀ rest, Separated rest → Lexes rest cs bs
  opens : Opens cs
  closes : Closes cs
  oneLine : '\n' ∉ cs
  balanced : ∀ depth, depthThrough bs depth = depth
  nonempty : bs ≠ []

namespace Fragment

theorem ne_nil {cs : List Char} {bs : List Bare} (h : Fragment cs bs) : cs ≠ [] := by
  obtain ⟨c, ds, rfl, -⟩ := h.opens
  simp

/-! ## Single words -/

/-- The white space characters. -/
def blanks : List Char :=
  (List.range 5).map (fun n => Char.ofNat (9 + n)) ++
    (List.range 11).map (fun n => Char.ofNat (0x2000 + n)) ++
      [0x20, 0x85, 0xa0, 0x1680, 0x2028, 0x2029, 0x202f, 0x205f, 0x3000].map Char.ofNat

theorem mem_blanks {c : Char} (h : Text.isBlank c = true) : c ∈ blanks := by
  simp only [Text.isBlank, Bool.or_eq_true, Bool.and_eq_true, decide_eq_true_eq, beq_iff_eq] at h
  have hc : c = Char.ofNat c.toNat := (Char.ofNat_toNat c).symm
  rw [hc]
  generalize c.toNat = n at h
  simp only [blanks, List.mem_append, List.mem_map, List.mem_range]
  rcases h with ((((((((((h | rfl) | rfl) | rfl) | rfl) | h) | rfl) | rfl) | rfl) | rfl) | rfl)
  case inl.inl.inl.inl.inl.inl.inl.inl.inl.inl =>
    exact Or.inl (Or.inl ⟨n - 9, by omega, by rw [Nat.add_sub_cancel' h.1]⟩)
  case inl.inl.inl.inl.inl.inr =>
    exact Or.inl (Or.inr ⟨n - 0x2000, by omega, by rw [Nat.add_sub_cancel' h.1]⟩)
  all_goals exact Or.inr ⟨_, by simp, rfl⟩

/-- No character of a name is blank. -/
theorem not_blank_of_name {c : Char}
    (h : Text.isNameStart c = true ∨ Text.isNameContinue c = true) : Text.isBlank c = false := by
  rw [Bool.eq_false_iff]
  intro hblank
  have hnone : ∀ d ∈ blanks, Text.isNameStart d = false ∧ Text.isNameContinue d = false :=
    forall_mem_of_all (by decide +kernel)
  obtain ⟨hstart, hcontinue⟩ := hnone c (mem_blanks hblank)
  rw [hstart, hcontinue] at h
  simp at h

/-- A name is a fragment. -/
theorem name {cs : List Char} (h : IsWord cs) :
    Fragment cs [(nameKind (String.ofList cs), String.ofList cs)] := by
  obtain ⟨c, ds, hcs, hc, hds⟩ := id h
  have hname : ∀ d ∈ cs, Text.isNameStart d = true ∨ Text.isNameContinue d = true := by
    intro d hd
    rw [hcs] at hd
    rcases List.mem_cons.mp hd with rfl | hd
    · exact Or.inl hc
    · exact Or.inr (hds d hd)
  refine ⟨fun rest hrest => .single (Lexeme.next_word h hrest.1), ?_, ?_, ?_, ?_, by simp⟩
  · refine ⟨c, ds, hcs, (Lexeme.of_isNameStart hc).1, ?_⟩
    rintro rfl
    exact absurd hc (by decide)
  · exact .of_forall (by simp [hcs]) fun d hd => not_blank_of_name (hname d hd)
  · intro hfeed
    exact absurd (not_blank_of_name (hname _ hfeed)) (by decide)
  · intro depth
    simp only [depthThrough_cons, depthThrough_nil, nameKind]
    split <;> rfl

/-- A numeral is a fragment. -/
theorem numeral {cs : List Char} (h : Numeral cs) :
    Fragment cs [(.number, String.ofList cs)] := by
  obtain ⟨c, ds, hcs, hc⟩ := Lexeme.head_numeral h
  have hchars : ∀ d ∈ cs, Text.isBlank d = false := by
    intro d hd
    rcases h.mem hd with hdigit | rfl | rfl | rfl | rfl
    · exact not_blank_of_name (Or.inr (Lexeme.isLayout_of_isDigit hdigit).2)
    all_goals decide
  refine ⟨fun rest hrest => .single (Lexeme.next_numeral h hrest.1), ?_, ?_, ?_, ?_, by simp⟩
  · refine ⟨c, ds, hcs, (Lexeme.isLayout_of_isDigit hc).1, ?_⟩
    rintro rfl
    exact absurd hc (by decide)
  · exact .of_forall h.ne_nil hchars
  · exact fun hfeed => absurd (hchars _ hfeed) (by decide)
  · exact fun depth => rfl

/-- A quoted text is a fragment. -/
theorem quoted (s : List Char) :
    Fragment (Source.quoteChars s) [(.string, String.ofList s)] := by
  refine ⟨fun rest hrest => .single (Lexeme.next_quoted s hrest.1), ?_, ?_, ?_, ?_, by simp⟩
  · exact ⟨'"', _, rfl, by decide, by decide⟩
  · exact ⟨'"' :: s.flatMap Source.quoteChar, '"', rfl, by decide⟩
  · simp only [Source.quoteChars, List.mem_append, List.mem_cons, List.mem_flatMap,
      List.not_mem_nil, or_false]
    rintro ((hquote | ⟨c, -, hc⟩) | hquote)
    · exact absurd hquote (by decide)
    · exact (escaped_quoteChar c).oneLine hc
    · exact absurd hquote (by decide)
  · exact fun depth => rfl

/-! ## Fragments side by side -/

/-- Two fragments with a separator between them. -/
theorem glue {cs ds sep : List Char} {us vs seps : List Bare} (h : Fragment cs us)
    (h' : Fragment ds vs) (hsep : ∀ rest, Separated (sep ++ rest))
    (hlexes : ∀ rest, Opens rest → Lexes rest sep seps)
    (hbalanced : ∀ depth, depthThrough seps depth = depth) (hline : '\n' ∉ sep) :
    Fragment (cs ++ (sep ++ ds)) (us ++ (seps ++ vs)) := by
  refine ⟨fun rest hrest => ?_, h.opens.append _, (h'.closes.append _).append _, ?_, ?_,
    by simp [h.nonempty]⟩
  · refine Lexes.append ?_ (Lexes.append (hlexes _ (h'.opens.append _)) (h'.lexes rest hrest))
    rw [List.append_assoc]
    exact h.lexes _ (hsep _)
  · simp only [List.mem_append, not_or]
    exact ⟨h.oneLine, hline, h'.oneLine⟩
  · intro depth
    rw [depthThrough_append, depthThrough_append, h.balanced, hbalanced, h'.balanced]

/-- Two arguments. -/
theorem comma {cs ds : List Char} {us vs : List Bare} (h : Fragment cs us) (h' : Fragment ds vs) :
    Fragment (cs ++ ([',', ' '] ++ ds)) (us ++ ([(.comma, ",")] ++ vs)) := by
  refine h.glue h' (fun rest => Separated.cons (by decide) (by decide)) (fun rest hrest => ?_)
    (fun _ => rfl) (by decide)
  exact .bracket_cons (by decide) (by simp) (.blank hrest.not_layout)

/-- A name with its annotation. -/
theorem annotated {cs ds : List Char} {us vs : List Bare} (h : Fragment cs us)
    (h' : Fragment ds vs) :
    Fragment (cs ++ ([':', ' '] ++ ds)) (us ++ ([(.colon, ":")] ++ vs)) := by
  refine h.glue h' (fun rest => Separated.cons (by decide) (by decide)) (fun rest hrest => ?_)
    (fun _ => rfl) (by decide)
  exact .bracket_cons (by decide) (by simp) (.blank hrest.not_layout)

/-- A declared name with its value. -/
theorem defined {cs ds : List Char} {us vs : List Bare} (h : Fragment cs us)
    (h' : Fragment ds vs) :
    Fragment (cs ++ ([' ', '=', ' '] ++ ds)) (us ++ ([(.assignment, "=")] ++ vs)) := by
  refine h.glue h' (fun rest => Separated.cons (by decide) (by decide)) (fun rest hrest => ?_)
    (fun _ => rfl) (by decide)
  have hequals : Lexes rest ['=', ' '] [(.assignment, "=")] :=
    .bracket_cons (by decide) (by simp) (.blank hrest.not_layout)
  have hblank : Lexes (['=', ' '] ++ rest) [' '] [] := .blank (by simp; decide)
  exact hblank.append hequals

/-- A value under its keyword. -/
theorem keyword {keyword cs : List Char} {bs : List Bare} (hkeyword : IsWord keyword)
    (h : Fragment cs bs) :
    Fragment (keyword ++ ('=' :: cs))
      ((nameKind (String.ofList keyword), String.ofList keyword) :: (.assignment, "=") :: bs) := by
  have hname := Fragment.name hkeyword
  refine ⟨fun rest hrest => ?_, hname.opens.append _, (h.closes.append ['=']).append _, ?_, ?_,
    by simp⟩
  · have hequals : Lexes rest ('=' :: cs) ((.assignment, "=") :: bs) :=
      .bracket_cons (by decide) (h.opens.append rest).head?_ne (h.lexes rest hrest)
    exact Lexes.append (.single (Lexeme.next_word hkeyword (Delimited.cons (by decide)))) hequals
  · simp only [List.mem_append, List.mem_cons, not_or]
    exact ⟨hname.oneLine, by decide, h.oneLine⟩
  · intro depth
    have hdepth := hname.balanced depth
    simp only [depthThrough_cons, depthThrough_nil] at hdepth ⊢
    rw [hdepth]
    exact h.balanced depth

/-! ## Brackets -/

/-- What stands between brackets: a fragment, or nothing at all. -/
def Inner (cs : List Char) (bs : List Bare) : Prop := cs = [] ∧ bs = [] ∨ Fragment cs bs

/-- Parentheses and square brackets are delimiters and visible. -/
theorem of_mem_brackets {c : Char} {kind : TokenKind} (h : (c, kind) ∈ Lexeme.brackets)
    (hkind : kind.isOpening = true ∨ kind.isClosing = true) :
    c ∈ Lexeme.delimiters ∧ c ≠ '=' ∧ c ≠ '\n' ∧ Text.isBlank c = false := by
  have hall : ∀ row ∈ Lexeme.brackets, row.2.isOpening = true ∨ row.2.isClosing = true →
      row.1 ∈ Lexeme.delimiters ∧ row.1 ≠ '=' ∧ row.1 ≠ '\n' ∧ Text.isBlank row.1 = false := by
    decide
  exact hall _ h hkind

namespace Inner

theorem lexes {cs : List Char} {bs : List Bare} (h : Inner cs bs) {rest : List Char}
    (hrest : Separated rest) : Lexes rest cs bs := by
  rcases h with ⟨rfl, rfl⟩ | h
  · exact .done
  · exact h.lexes rest hrest

theorem head?_ne {cs : List Char} {bs : List Bare} (h : Inner cs bs) {rest : List Char}
    (hrest : Separated rest) : (cs ++ rest).head? ≠ some '=' := by
  rcases h with ⟨rfl, rfl⟩ | h
  · exact hrest.2
  · exact (h.opens.append rest).head?_ne

theorem oneLine {cs : List Char} {bs : List Bare} (h : Inner cs bs) : '\n' ∉ cs := by
  rcases h with ⟨rfl, rfl⟩ | h
  · simp
  · exact h.oneLine

theorem closes {cs : List Char} {bs : List Bare} (h : Inner cs bs) : cs = [] ∨ Closes cs :=
  h.imp And.left Fragment.closes

theorem balanced {cs : List Char} {bs : List Bare} (h : Inner cs bs) (depth : Nat) :
    depthThrough bs depth = depth := by
  rcases h with ⟨rfl, rfl⟩ | h
  · rfl
  · exact h.balanced depth

end Inner

/-- One fragment in brackets behind another. -/
theorem enclosed {cs ds : List Char} {us vs : List Bare} (o c : Char) (opening closing : TokenKind)
    (h : Fragment cs us) (h' : Inner ds vs) (hopen : (o, opening) ∈ Lexeme.brackets)
    (hclose : (c, closing) ∈ Lexeme.brackets) (hopening : opening.isOpening = true)
    (hclosing : opening.isClosing = false ∧ closing.isOpening = false ∧ closing.isClosing = true) :
    Fragment (cs ++ ([o] ++ (ds ++ [c])))
      (us ++ ([(opening, String.ofList [o])] ++ (vs ++ [(closing, String.ofList [c])]))) := by
  obtain ⟨ho, hoequals, hofeed, -⟩ := of_mem_brackets hopen (Or.inl hopening)
  obtain ⟨hc, hcequals, hcfeed, hcblank⟩ := of_mem_brackets hclose (Or.inr hclosing.2.2)
  have hclosed : ∀ rest, Separated ([c] ++ rest) := fun rest => Separated.cons hc hcequals
  refine ⟨fun rest hrest => ?_, h.opens.append _, ?_, ?_, ?_, by simp⟩
  · have hbracket : Lexes rest [c] [(closing, String.ofList [c])] := .bracket hclose hrest.2
    have hinner := (h'.lexes (hclosed rest)).append hbracket
    have hfollows : ((ds ++ [c]) ++ rest).head? ≠ some '=' := by
      rw [List.append_assoc]
      exact h'.head?_ne (hclosed rest)
    exact (h.lexes _ (Separated.cons ho hoequals)).append
      ((Lexes.bracket hopen hfollows).append hinner)
  · exact ⟨cs ++ ([o] ++ ds), c, by simp, hcblank⟩
  · simp only [List.mem_append, List.mem_singleton, not_or]
    exact ⟨h.oneLine, hofeed.symm, h'.oneLine, hcfeed.symm⟩
  · intro depth
    rw [depthThrough_append, depthThrough_append, depthThrough_append, h.balanced, h'.balanced]
    simp [TokenKind.depthAfter, hopening, hclosing]

/-- Fragments with commas between them. -/
theorem separated_cons {p : List Char × List Bare} {parts : List (List Char × List Bare)}
    (h : ∀ q ∈ p :: parts, Fragment q.1 q.2) :
    Fragment ([',', ' '].intercalate ((p :: parts).map Prod.fst))
      ([(.comma, ",")].intercalate ((p :: parts).map Prod.snd)) := by
  induction parts generalizing p with
  | nil => simpa using h p List.mem_cons_self
  | cons q parts ih =>
    have hcomma := (h p List.mem_cons_self).comma (ih fun r hr => h r (List.mem_cons_of_mem p hr))
    simpa [List.intercalate_cons_cons] using hcomma

theorem separated {parts : List (List Char × List Bare)} (h : ∀ p ∈ parts, Fragment p.1 p.2) :
    Inner ([',', ' '].intercalate (parts.map Prod.fst))
      ([(.comma, ",")].intercalate (parts.map Prod.snd)) := by
  cases parts with
  | nil => exact Or.inl ⟨rfl, rfl⟩
  | cons p parts => exact Or.inr (separated_cons h)

end Fragment
end SlotTree

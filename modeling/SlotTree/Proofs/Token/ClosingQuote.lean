import SlotTree.Proofs.Token.Quotation

/-!
# Where a string literal ends

`stringBody?` goes through a text once and decides at every character anew whether the literal
goes on.  What it finds can be said without going through the text: between the quotes stand
*units* (`Units`), and the literal ends where its quote stands directly behind them.  A backslash
and the character behind it are one unit, whatever the character is; any other character is a unit
unless the quote starts at it, or it is a line feed in a literal whose quote is a single character.

Since the quote starts at no unit, the units in front of a quote are determined by the text, and a
text has at most one body.  That the scanner takes the shortest one is then no choice that it makes
(`stringBody?_eq_some_iff`, `IsBody.eq`).

A body consists of units, so its last character is never a backslash that waits for another one.
For the resolution of escapes this means that it never comes to a backslash with nothing behind it:
`unescapeWith` leaves open what an escape stands for, and on a body it does not matter what it
answers there (`unescapeWith_of_not_escapesNext`).

The main statement is about the scanner (`readLexeme_literal`): what it makes of a text that starts
with a mark and a quote, where it stands afterwards, and when it refuses the literal.
-/

namespace SlotTree

open Text (byteLength lowerChar)

/-! ## Bodies -/

namespace Lexeme

/-- Characters of a literal in front of the given rest, one unit behind the other. -/
inductive Units (quote rest : List Char) : List Char → Prop where
  | nil : Units quote rest []
  | escaped (c : Char) {body : List Char} (h : Units quote rest body) :
      Units quote rest ('\\' :: c :: body)
  | single {c : Char} {body : List Char} (hplain : c ≠ '\\')
      (hopen : ¬ quote <+: c :: body ++ rest) (hline : quote.length = 1 → c ≠ '\n')
      (h : Units quote rest body) : Units quote rest (c :: body)

/-- The body of a literal whose opening quote stands in front of the text: units that the quote
follows. -/
def IsBody (quote text body : List Char) : Prop :=
  ∃ rest, text = body ++ (quote ++ rest) ∧ Units quote (quote ++ rest) body

/-- The quotes of string literals. -/
def quotes : List (List Char) := [['\'', '\'', '\''], ['"', '"', '"'], ['\''], ['"']]

/-- A quote starts with a quotation mark. -/
theorem exists_eq_cons_of_mem_quotes {quote : List Char} (h : quote ∈ quotes) :
    ∃ q qs, quote = q :: qs ∧ (q = '\'' ∨ q = '"') := by
  simp only [quotes, List.mem_cons, List.not_mem_nil, or_false] at h
  rcases h with rfl | rfl | rfl | rfl
  · exact ⟨_, _, rfl, Or.inl rfl⟩
  · exact ⟨_, _, rfl, Or.inr rfl⟩
  · exact ⟨_, _, rfl, Or.inl rfl⟩
  · exact ⟨_, _, rfl, Or.inr rfl⟩

/-- What the scan finds is a body. -/
theorem isBody_of_stringBody? {quote text body : List Char}
    (h : stringBody? quote text = some body) : IsBody quote text body := by
  fun_induction stringBody? quote text generalizing body with
  | case1 => cases h
  | case2 => cases h
  | case3 c hc d ds ih =>
    obtain ⟨inner, hinner, rfl⟩ := Option.map_eq_some_iff.mp h
    obtain ⟨rest, rfl, hunits⟩ := ih hinner
    obtain rfl : c = '\\' := by simpa using hc
    exact ⟨rest, rfl, .escaped d hunits⟩
  | case4 => cases h
  | case5 c cs _ _ hquote =>
    obtain rfl := Option.some.inj h
    obtain ⟨rest, hrest⟩ := List.isPrefixOf_iff_prefix.mp hquote
    exact ⟨rest, hrest.symm, .nil⟩
  | case6 c cs hc hline hquote ih =>
    obtain ⟨inner, hinner, rfl⟩ := Option.map_eq_some_iff.mp h
    obtain ⟨rest, rfl, hunits⟩ := ih hinner
    refine ⟨rest, rfl, .single (by simpa using hc) ?_ ?_ hunits⟩
    · rwa [List.isPrefixOf_iff_prefix] at hquote
    · rintro hone rfl
      simp [hone] at hline

/-- The scan finds units that a quote follows. -/
theorem stringBody?_of_units {quote rest body : List Char} (hquote : quote ∈ quotes)
    (h : Units quote (quote ++ rest) body) :
    stringBody? quote (body ++ (quote ++ rest)) = some body := by
  induction h with
  | nil =>
    obtain ⟨q, qs, rfl, hq⟩ := exists_eq_cons_of_mem_quotes hquote
    have hplain : (q == '\\') = false := by rcases hq with rfl | rfl <;> rfl
    have hline : (q == '\n') = false := by rcases hq with rfl | rfl <;> rfl
    have hprefix : (q :: qs).isPrefixOf (q :: (qs ++ rest)) = true :=
      List.isPrefixOf_iff_prefix.mpr (List.prefix_append (q :: qs) rest)
    rw [List.nil_append, List.cons_append, stringBody?.eq_def]
    simp only [hplain, hline, hprefix, Bool.false_and, Bool.false_eq_true, if_false, if_true]
  | escaped c _ ih =>
    rw [List.cons_append, List.cons_append, stringBody?.eq_def]
    simp only [beq_self_eq_true, if_true, ih, Option.map_some]
  | @single c body hplain hopen hline _ ih =>
    have hplain' : (c == '\\') = false := by simpa using hplain
    have hline' : (c == '\n' && quote.length == 1) = false := by
      by_cases hone : quote.length = 1
      · simp [hline hone]
      · simp [hone]
    have hopen' : quote.isPrefixOf (c :: (body ++ (quote ++ rest))) = false := by
      rwa [← Bool.not_eq_true, List.isPrefixOf_iff_prefix]
    rw [List.cons_append, stringBody?.eq_def]
    simp only [hplain', hline', hopen', ih, Bool.false_eq_true, if_false, Option.map_some]

/-- **The scan finds the body of a literal if there is one.** -/
theorem stringBody?_eq_some_iff {quote text body : List Char} (hquote : quote ∈ quotes) :
    stringBody? quote text = some body ↔ IsBody quote text body := by
  constructor
  · exact isBody_of_stringBody?
  · rintro ⟨rest, rfl, hunits⟩
    exact stringBody?_of_units hquote hunits

/-- A text has at most one body. -/
theorem IsBody.eq {quote text body other : List Char} (hquote : quote ∈ quotes)
    (h : IsBody quote text body) (h' : IsBody quote text other) : body = other := by
  have hbody := (stringBody?_eq_some_iff hquote).mpr h
  rw [(stringBody?_eq_some_iff hquote).mpr h'] at hbody
  exact (Option.some.inj hbody).symm

end Lexeme

/-! ## No backslash is left over -/

@[simp] theorem escapesNext_escaped (c : Char) (cs : List Char) :
    escapesNext ('\\' :: c :: cs) = escapesNext cs := by
  simp [escapesNext]

theorem escapesNext_cons {c : Char} (hc : c ≠ '\\') (cs : List Char) :
    escapesNext (c :: cs) = escapesNext cs := by
  have hsingle : escapesNext [c] = false := by simpa [escapesNext] using hc
  exact escapesNext_append hsingle cs

theorem escapesNext_drop {ds : List Char} (h : ∀ d ∈ ds, d ≠ '\\') (cs : List Char) :
    escapesNext (ds ++ cs) = escapesNext cs := by
  induction ds with
  | nil => rfl
  | cons d ds ih =>
    rw [List.cons_append, escapesNext_cons (h d List.mem_cons_self)]
    exact ih fun x hx => h x (List.mem_cons_of_mem d hx)

/-- Units leave the character behind them unescaped. -/
theorem Lexeme.Units.escapesNext {quote rest body : List Char} (h : Units quote rest body) :
    escapesNext body = false := by
  induction h with
  | nil => rfl
  | escaped c _ ih => rwa [escapesNext_escaped]
  | single hplain _ _ _ ih => rwa [escapesNext_cons hplain]

namespace Escape

/-- The text with its escapes resolved as the given function says, after passing over the given
number of characters. -/
def unescapeWith (resolve : List Char → List Char × Nat) : (skip : Nat) → List Char → List Char
  | _, [] => []
  | skip + 1, _ :: cs => unescapeWith resolve skip cs
  | 0, c :: cs =>
    if c == '\\' then (resolve cs).1 ++ unescapeWith resolve (resolve cs).2 cs
    else c :: unescapeWith resolve 0 cs

/-- Resolving escapes is resolving them as `escape` does. -/
theorem unescapeFrom_eq (bytes : Bool) (skip : Nat) (cs : List Char) :
    unescapeFrom bytes skip cs = unescapeWith (escape bytes) skip cs := by
  induction cs generalizing skip with
  | nil => cases skip <;> rfl
  | cons c cs ih =>
    cases skip with
    | zero => simp only [unescapeFrom, unescapeWith, ih]
    | succ skip => exact ih skip

/-- A digit is no backslash. -/
theorem ne_backslash_of_isDigit {radix : Nat} (hradix : radix ≤ 16) {d : Char}
    (h : Decimal.isDigit radix d = true) : d ≠ '\\' := by
  rintro rfl
  have hvalue : Decimal.digitValue '\\' = 16 := by decide
  simp only [Decimal.isDigit, hvalue, decide_eq_true_eq] at h
  omega

/-- The digits of an octal escape behind the first one. -/
theorem exists_octalWidth {c : Char} (hc : Decimal.isDigit 8 c = true) {cs : List Char} :
    ∃ ds rest, cs = ds ++ rest ∧ octalWidth (c :: cs) = ds.length + 1 ∧ ∀ d ∈ ds, d ≠ '\\' := by
  have hprefix : (cs.take 2).takeWhile (Decimal.isDigit 8) <+: cs :=
    (List.takeWhile_prefix _).trans (List.take_prefix 2 cs)
  obtain ⟨rest, hrest⟩ := hprefix
  refine ⟨_, rest, hrest.symm, ?_, fun d hd => ?_⟩
  · rw [octalWidth, List.take_succ_cons, List.takeWhile_cons_of_pos hc, List.length_cons]
  · exact ne_backslash_of_isDigit (by decide) (List.mem_takeWhile_imp hd)

/-- The digits of a numeric escape are there, and they are digits. -/
theorem of_hexChar? {width : Nat} {cs : List Char} {d : Char} (h : hexChar? width cs = some d) :
    (cs.take width).length = width ∧ ∀ x ∈ cs.take width, Decimal.isDigit 16 x = true := by
  unfold hexChar? at h
  simp only at h
  split at h
  · next hdigits => simpa using hdigits
  · cases h

/-- The characters that an escape takes up behind its letter are no backslashes. -/
theorem exists_escape_width (bytes : Bool) (c : Char) (cs : List Char) :
    ∃ ds rest, cs = ds ++ rest ∧ (escape bytes (c :: cs)).2 = ds.length + 1 ∧
      ∀ d ∈ ds, d ≠ '\\' := by
  -- most escapes are a letter alone
  have hletter : ∃ ds rest, cs = ds ++ rest ∧ 1 = ds.length + 1 ∧ ∀ d ∈ ds, d ≠ '\\' :=
    ⟨[], cs, rfl, rfl, by simp⟩
  unfold escape
  split
  · next h => cases h
  · exact hletter
  · next h =>
    obtain ⟨-, rfl⟩ := List.cons.inj h
    exact ⟨['\n'], _, rfl, rfl, by simp⟩
  · exact hletter
  · next h =>
    obtain ⟨rfl, rfl⟩ := List.cons.inj h
    split
    · exact hletter
    split
    · next hoctal => exact exists_octalWidth hoctal
    split
    · next d width hhex =>
      obtain ⟨width', -, hhex⟩ := Option.bind_eq_some_iff.mp hhex
      obtain ⟨d', hchar, hpair⟩ := Option.map_eq_some_iff.mp hhex
      obtain ⟨rfl, rfl⟩ := Prod.mk.inj hpair
      obtain ⟨hlength, hdigits⟩ := of_hexChar? hchar
      exact ⟨_, _, (List.take_append_drop width' _).symm, by rw [hlength],
        fun x hx => ne_backslash_of_isDigit le_rfl (hdigits x hx)⟩
    · exact hletter

/-- **What a backslash at the very end stands for does not matter** where none is left over. -/
theorem unescapeWith_of_not_escapesNext {bytes : Bool} {resolve : List Char → List Char × Nat}
    (hresolve : ∀ cs, cs ≠ [] → resolve cs = escape bytes cs) {skip : Nat} {cs : List Char}
    (h : escapesNext (cs.drop skip) = false) :
    unescapeWith resolve skip cs = unescapeFrom bytes skip cs := by
  rw [unescapeFrom_eq]
  induction cs generalizing skip with
  | nil => cases skip <;> rfl
  | cons c cs ih =>
    cases skip with
    | succ skip => exact ih h
    | zero =>
      rw [List.drop_zero] at h
      by_cases hc : c = '\\'
      · subst hc
        cases cs with
        | nil => cases h
        | cons d cs =>
          rw [escapesNext_escaped] at h
          obtain ⟨ds, rest, rfl, hwidth, hds⟩ := exists_escape_width bytes d cs
          rw [escapesNext_drop hds] at h
          have hlater : escapesNext ((d :: (ds ++ rest)).drop (ds.length + 1)) = false := by
            rwa [List.drop_succ_cons, List.drop_left]
          simp only [unescapeWith, beq_self_eq_true, if_true, hresolve _ (List.cons_ne_nil d _),
            hwidth, ih hlater]
      · have hplain : (c == '\\') = false := by simpa using hc
        rw [escapesNext_cons hc] at h
        have hlater : escapesNext (cs.drop 0) = false := h
        simp only [unescapeWith, hplain, Bool.false_eq_true, if_false]
        rw [ih hlater]

end Escape

/-! ## What opens a literal -/

namespace Lexeme

/-- A mark in either case and a quote open a literal in front of the text. A single quotation mark
is the quote only if there are not three of a kind. -/
structure OpensLiteral (mark quote text : List Char) : Prop where
  isMark : mark.map lowerChar ∈ marks
  isQuote : quote ∈ quotes
  longest : ∀ q, quote = [q] → ¬ [q, q] <+: text

/-- A mark consists of letters. -/
theorem mem_of_mem_marks {mark : List Char} (h : mark ∈ marks) {d : Char} (hd : d ∈ mark) :
    d ∈ ['r', 'b', 'f', 'u'] := by
  have hall : ∀ mark ∈ marks, mark.all ['r', 'b', 'f', 'u'].contains = true := by decide
  exact List.contains_iff_mem.mp (List.all_eq_true.mp (hall mark h) d hd)

/-- A quotation mark in lower case is no letter of a mark. -/
theorem lowerChar_not_mem_of_quotation {q : Char} (h : q = '\'' ∨ q = '"') :
    lowerChar q ∉ ['r', 'b', 'f', 'u'] := by
  rcases h with rfl | rfl <;> decide

/-- Where there are not three of a kind the quote is single. -/
theorem leadingQuote_single {q : Char} (hq : q = '\'' ∨ q = '"') {text : List Char}
    (h : ¬ [q, q] <+: text) : leadingQuote (q :: text) = [q] := by
  have hfewer : ∀ tail, text ≠ q :: q :: tail := by
    rintro tail rfl
    exact h (List.prefix_append [q, q] tail)
  rcases hq with rfl | rfl
  · rw [leadingQuote]
    exact hfewer
  · rw [leadingQuote]
    exact hfewer

namespace OpensLiteral

variable {mark quote text : List Char}

/-- The quote is the longest one at its place. -/
theorem leadingQuote_eq (h : OpensLiteral mark quote text) :
    leadingQuote (quote ++ text) = quote := by
  have hquote := h.isQuote
  simp only [quotes, List.mem_cons, List.not_mem_nil, or_false] at hquote
  rcases hquote with rfl | rfl | rfl | rfl
  · rfl
  · rfl
  · exact leadingQuote_single (Or.inl rfl) (h.longest '\'' rfl)
  · exact leadingQuote_single (Or.inr rfl) (h.longest '"' rfl)

/-- Only the mark that is there stands in front of a quote. -/
theorem eq_of_leadingQuote (h : OpensLiteral mark quote text) {other : List Char}
    (hother : other ∈ marks)
    (htake : ((mark ++ (quote ++ text)).take other.length).map lowerChar = other)
    (hdrop : leadingQuote ((mark ++ (quote ++ text)).drop other.length) ≠ []) :
    other = mark.map lowerChar := by
  obtain ⟨q, qs, hquote, hq⟩ := exists_eq_cons_of_mem_quotes h.isQuote
  rcases Nat.lt_trichotomy other.length mark.length with hlt | heq | hgt
  · -- a letter of the mark stands where the quote should
    rw [List.drop_append_of_le_length hlt.le, List.drop_eq_getElem_cons hlt] at hdrop
    refine absurd (leadingQuote_eq_nil fun c hc => ?_) hdrop
    obtain rfl : mark[other.length] = c := Option.some.inj hc
    have hletter := mem_of_mem_marks h.isMark (List.mem_map_of_mem (List.getElem_mem hlt))
    constructor
    · intro hc
      exact lowerChar_not_mem_of_quotation (Or.inr hc) hletter
    · intro hc
      exact lowerChar_not_mem_of_quotation (Or.inl hc) hletter
  · rw [heq, List.take_left] at htake
    exact htake.symm
  · -- a quotation mark stands where a letter should
    have hmem : lowerChar q ∈ other := by
      rw [← htake, hquote, List.take_append, List.take_of_length_le hgt.le]
      obtain ⟨n, hn⟩ := Nat.exists_eq_add_of_lt hgt
      have hmore : other.length - mark.length = n + 1 := by omega
      simp [hmore]
    exact absurd (mem_of_mem_marks hother hmem) (lowerChar_not_mem_of_quotation hq)

/-- **The mark and the quote of a literal are found.** -/
theorem stringOpening?_eq (h : OpensLiteral mark quote text) :
    stringOpening? (mark ++ (quote ++ text)) = some (mark.map lowerChar, quote) := by
  have hne : quote ≠ [] := by
    obtain ⟨q, qs, rfl, -⟩ := exists_eq_cons_of_mem_quotes h.isQuote
    exact List.cons_ne_nil q qs
  have hfound : (stringOpening? (mark ++ (quote ++ text))).isSome = true := by
    rw [stringOpening?, List.findSome?_isSome_iff]
    refine ⟨mark.map lowerChar, h.isMark, ?_⟩
    simp [h.leadingQuote_eq, hne]
  obtain ⟨opening, hopening⟩ := Option.isSome_iff_exists.mp hfound
  obtain ⟨other, hother, hrule⟩ := List.exists_of_findSome?_eq_some hopening
  simp only at hrule
  split at hrule
  · next hthere =>
    simp only [Bool.and_eq_true, beq_iff_eq, Bool.not_eq_true', List.isEmpty_eq_false_iff]
      at hthere
    obtain rfl := h.eq_of_leadingQuote hother hthere.1 hthere.2
    rw [hopening, ← hrule, List.length_map, List.drop_left, h.leadingQuote_eq]
  · cases hrule

/-- A literal is no layout. -/
theorem exists_eq_cons (h : OpensLiteral mark quote text) :
    ∃ c cs, mark ++ (quote ++ text) = c :: cs ∧ isLayout c = false := by
  have hlayout : ∀ c ∈ [' ', '\t', '\x0c', '\\', '#', '\r', '\n'],
      lowerChar c ∉ ['r', 'b', 'f', 'u'] := forall_mem_of_all (by decide)
  cases mark with
  | nil =>
    obtain ⟨q, qs, rfl, hq⟩ := exists_eq_cons_of_mem_quotes h.isQuote
    exact ⟨q, qs ++ text, rfl, by rcases hq with rfl | rfl <;> rfl⟩
  | cons c mark =>
    have hletter := mem_of_mem_marks h.isMark (List.mem_map_of_mem List.mem_cons_self)
    refine ⟨c, mark ++ (quote ++ text), rfl, Bool.eq_false_iff.mpr fun hc => ?_⟩
    exact hlayout c (mem_of_isLayout hc) hletter

/-- **What a text is read as that starts with a mark and a quote.** -/
theorem next_eq (h : OpensLiteral mark quote text) :
    next (mark ++ (quote ++ text)) =
      match stringBody? quote text with
      | none => .error .unterminatedString
      | some body =>
        .ok ⟨.token (stringKind (mark.map lowerChar)) (stringText (mark.map lowerChar) body),
          mark ++ quote ++ body ++ quote⟩ := by
  have hrule : stringRule (mark ++ (quote ++ text)) =
      some (match stringBody? quote text with
        | none => .error .unterminatedString
        | some body =>
          .ok ⟨.token (stringKind (mark.map lowerChar)) (stringText (mark.map lowerChar) body),
            mark ++ quote ++ body ++ quote⟩) := by
    have hlength : (mark.map lowerChar).length + quote.length = (mark ++ quote).length := by
      rw [List.length_map, List.length_append]
    have hdrop : (mark ++ (quote ++ text)).drop ((mark.map lowerChar).length + quote.length) =
        text := by
      rw [hlength, ← List.append_assoc, List.drop_left]
    have htake : (mark ++ (quote ++ text)).take ((mark.map lowerChar).length + quote.length) =
        mark ++ quote := by
      rw [hlength, ← List.append_assoc, List.take_left]
    cases hbody : stringBody? quote text with
    | none => simp only [stringRule, h.stringOpening?_eq, Option.map_some, hdrop, hbody]
    | some body => simp only [stringRule, h.stringOpening?_eq, Option.map_some, hdrop, htake, hbody]
  obtain ⟨c, cs, heq, hc⟩ := h.exists_eq_cons
  rw [heq] at hrule ⊢
  rw [next_of_not_layout hc, List.findSome?_cons, hrule]

end OpensLiteral
end Lexeme

/-! ## What the scanner does -/

open Lexeme

/-- The scanner behind a literal of the given mark and body, in front of the rest. -/
def Scan.behindLiteral (file : String) (s : Scan) (mark quote body rest : List Char) : Scan :=
  let stop := s.offset + byteLength (mark ++ quote ++ body ++ quote)
  let lower := mark.map lowerChar
  { s with
    rest
    offset := stop
    emitted := ⟨stringKind lower, stringText lower body, ⟨⟨s.offset, file⟩, ⟨stop, file⟩⟩⟩ ::
      s.emitted }

theorem readLexeme_of_stringBody? {file : String} {s : Scan} {mark quote text : List Char}
    (hrest : s.rest = mark ++ (quote ++ text)) (h : OpensLiteral mark quote text)
    {body rest : List Char} (htext : text = body ++ (quote ++ rest))
    (hbody : stringBody? quote text = some body) :
    s.readLexeme file = .ok (s.behindLiteral file mark quote body rest) := by
  have hkind : ∀ mark depth, (stringKind mark).depthAfter depth = depth := by
    intro mark depth
    unfold stringKind
    split_ifs <;> rfl
  have hdrop : s.rest.drop (mark ++ quote ++ body ++ quote).length = rest := by
    rw [hrest, htext]
    have hassoc : mark ++ (quote ++ (body ++ (quote ++ rest))) =
        (mark ++ quote ++ body ++ quote) ++ rest := by simp only [List.append_assoc]
    rw [hassoc, List.drop_left]
  rw [Scan.readLexeme, hrest, h.next_eq, hbody]
  simp only [Scan.accept, hkind]
  simp only [Scan.advance, Scan.emit, Scan.spanOf, Scan.behindLiteral, hdrop]

/-- **A string literal ends at the first closing quote that is not escaped.**  In front of a mark
and a quote the scanner reads a literal if units with the quote behind them follow, and they are the
shortest such body; it then stands behind the closing quote, with as many bytes more as the mark,
the quotes and the body take up.  If there is no body it refuses the literal at its start.  The body
leaves no backslash over, so that what the resolution of escapes makes of a backslash with nothing
behind it plays no part. -/
theorem readLexeme_literal {file : String} {s : Scan} {mark quote text : List Char}
    (hrest : s.rest = mark ++ (quote ++ text)) (h : OpensLiteral mark quote text) :
    (∀ s', s.readLexeme file = .ok s' ↔ ∃ body rest, text = body ++ (quote ++ rest) ∧
        Units quote (quote ++ rest) body ∧ (∀ other, IsBody quote text other → body <+: other) ∧
        s' = s.behindLiteral file mark quote body rest) ∧
      (∀ fault, s.readLexeme file = .error fault ↔ (∀ body, ¬ IsBody quote text body) ∧
        fault = ⟨.unterminatedString, s.position file⟩) ∧
      ∀ body, IsBody quote text body → escapesNext body = false ∧
        ∀ bytes resolve, (∀ cs, cs ≠ [] → resolve cs = Escape.escape bytes cs) →
          Escape.unescapeWith resolve 0 body = Escape.unescape bytes body := by
  have hescapes : ∀ body, IsBody quote text body → escapesNext body = false :=
    fun body ⟨rest, _, hunits⟩ => hunits.escapesNext
  have hresolved : ∀ body, IsBody quote text body → ∀ bytes resolve,
      (∀ cs, cs ≠ [] → resolve cs = Escape.escape bytes cs) →
        Escape.unescapeWith resolve 0 body = Escape.unescape bytes body :=
    fun body hbody bytes resolve hresolve =>
      Escape.unescapeWith_of_not_escapesNext hresolve (hescapes body hbody)
  refine ⟨fun s' => ⟨fun hread => ?_, ?_⟩, fun fault => ?_,
    fun body hbody => ⟨hescapes body hbody, hresolved body hbody⟩⟩
  · cases hbody : stringBody? quote text with
    | none =>
      rw [Scan.readLexeme, hrest, h.next_eq, hbody] at hread
      cases hread
    | some body =>
      have his := (stringBody?_eq_some_iff h.isQuote).mp hbody
      obtain ⟨rest, htext, hunits⟩ := id his
      rw [readLexeme_of_stringBody? hrest h htext hbody] at hread
      refine ⟨body, rest, htext, hunits, fun other hother => ?_, (Except.ok.inj hread).symm⟩
      exact (his.eq h.isQuote hother) ▸ List.prefix_rfl
  · rintro ⟨body, rest, htext, hunits, -, rfl⟩
    exact readLexeme_of_stringBody? hrest h htext
      ((stringBody?_eq_some_iff h.isQuote).mpr ⟨rest, htext, hunits⟩)
  · have hnone : stringBody? quote text = none ↔ ∀ body, ¬ IsBody quote text body := by
      simp only [Option.eq_none_iff_forall_ne_some, ne_eq, stringBody?_eq_some_iff h.isQuote]
    rw [← hnone]
    cases hbody : stringBody? quote text with
    | none =>
      rw [Scan.readLexeme, hrest, h.next_eq, hbody]
      simp [eq_comm]
    | some body =>
      obtain ⟨rest, htext, -⟩ := isBody_of_stringBody? hbody
      rw [readLexeme_of_stringBody? hrest h htext hbody]
      simp

/-- A raw literal with quotation marks in it, one of them behind a backslash, and more text. -/
def quotedScan : Scan :=
  ⟨"R\"\"\"a\"\\\"é\"\"\" + 1".toList, 7, [], [0], 0, false⟩

theorem readLexeme_literal_tripled :
    OpensLiteral ['R'] ['"', '"', '"'] "a\"\\\"é\"\"\" + 1".toList ∧
      Units ['"', '"', '"'] "\"\"\" + 1".toList "a\"\\\"é".toList ∧
      ∃ s', quotedScan.readLexeme "main.py" = .ok s' ∧ s'.offset = 20 ∧
        s'.rest = " + 1".toList := by
  have hopens : OpensLiteral ['R'] ['"', '"', '"'] "a\"\\\"é\"\"\" + 1".toList :=
    ⟨by decide, by decide, by simp⟩
  have hunits : Units ['"', '"', '"'] "\"\"\" + 1".toList "a\"\\\"é".toList :=
    .single (by decide) (by decide) (by decide) <| .single (by decide) (by decide) (by decide) <|
      .escaped '"' <| .single (by decide) (by decide) (by decide) .nil
  refine ⟨hopens, hunits, _, ((readLexeme_literal (by decide) hopens).1 _).mpr
    ⟨_, " + 1".toList, by decide, hunits, fun other hother => ?_, rfl⟩, by decide, by decide⟩
  exact (hother.eq hopens.isQuote ⟨_, by decide, hunits⟩) ▸ List.prefix_rfl

end SlotTree

import SlotTree.Proofs.Token.Words
import SlotTree.Source.Quote

/-!
# Quoted text

A text is written between double quotes with some of its characters escaped, and reading
the literal gives the text back.  Character by character the written form is either the
character itself, which is then no quote, no backslash and no line feed, or a backslash
with an escape that stands for the character (`Escaped`).  Both the search for the closing
quote and the resolution of escapes go along these pieces.
-/

namespace SlotTree

/-- The characters that may stand in a literal as they are. -/
def Literally (c : Char) : Prop := c ≠ '\\' ∧ c ≠ '"' ∧ c ≠ '\n'

instance (c : Char) : Decidable (Literally c) := inferInstanceAs (Decidable (_ ∧ _ ∧ _))

/-- The piece of a literal stands for the character `c`. -/
inductive Escaped (c : Char) : List Char → Prop where
  | plain (literal : Literally c) : Escaped c [c]
  | escape {d : Char} {ds : List Char} (letter : d ≠ '\n') (literal : ∀ x ∈ ds, Literally x)
      (meaning : ∀ rest, Escape.escape false (d :: (ds ++ rest)) = ([c], ds.length + 1)) :
      Escaped c ('\\' :: d :: ds)

/-! ## The pieces that are written -/

namespace Escape

/-- An escape of one letter. -/
theorem escape_single {c d : Char} (hfeed : d ≠ '\n') (hreturn : d ≠ '\r')
    (h : single? d = some c) (rest : List Char) : escape false (d :: rest) = ([c], 1) := by
  rw [escape.eq_def]
  split
  · next heq => cases heq
  · next heq => exact absurd (List.cons.inj heq).1 hfeed
  · next heq => exact absurd (List.cons.inj heq).1 hreturn
  · next heq => exact absurd (List.cons.inj heq).1 hreturn
  · next heq =>
    obtain ⟨rfl, rfl⟩ := List.cons.inj heq
    simp only [h]

/-- A numeric escape with two digits. -/
theorem escape_hex {h l d : Char} (hchar : hexChar? 2 [h, l] = some d) (rest : List Char) :
    escape false ('x' :: h :: l :: rest) = ([d], 3) := by
  have hmore : hexChar? 2 (h :: l :: rest) = some d := hchar
  have hsingle : single? 'x' = none := by decide
  have hdigit : Decimal.isDigit 8 'x' = false := by decide
  have hwidth : hexWidth? false 'x' = some 2 := by decide
  simp [escape, hsingle, hdigit, hwidth, hmore]

end Escape

/-- The numeric escapes that are written are read as the characters they are written for. -/
theorem hexChar?_hexDigit {n : Nat} (h : n < 32 ∨ n = 127) :
    Escape.hexChar? 2 [Json.hexDigit (n / 16), Json.hexDigit (n % 16)] = some (Char.ofNat n) ∧
      ∀ x ∈ [Json.hexDigit (n / 16), Json.hexDigit (n % 16)], Literally x := by
  have hall : ∀ n ∈ List.range 32 ++ [127],
      Escape.hexChar? 2 [Json.hexDigit (n / 16), Json.hexDigit (n % 16)] = some (Char.ofNat n) ∧
        Literally (Json.hexDigit (n / 16)) ∧ Literally (Json.hexDigit (n % 16)) := by decide
  obtain ⟨hchar, hhigh, hlow⟩ := hall n (by simpa using h)
  exact ⟨hchar, by simp [hhigh, hlow]⟩

/-- **Every character is written as a piece that stands for it.** -/
theorem escaped_quoteChar (c : Char) : Escaped c (Source.quoteChar c) := by
  have hsingle : ∀ d, Escape.single? d = some c → d ≠ '\n' → d ≠ '\r' →
      Escaped c ['\\', d] := fun d hd hfeed hreturn =>
    .escape hfeed (by simp) (Escape.escape_single hfeed hreturn hd)
  simp only [Source.quoteChar, beq_iff_eq]
  split
  · next heq => exact hsingle '\\' (by rw [heq]; rfl) (by decide) (by decide)
  · next hbackslash =>
    split
    · next heq => exact hsingle '"' (by rw [heq]; rfl) (by decide) (by decide)
    · next hquote =>
      split
      · next heq => exact hsingle 'n' (by rw [heq]; rfl) (by decide) (by decide)
      · next hfeed =>
        split
        · next heq => exact hsingle 'r' (by rw [heq]; rfl) (by decide) (by decide)
        · split
          · next heq => exact hsingle 't' (by rw [heq]; rfl) (by decide) (by decide)
          · split
            · next hcontrol =>
              have hrange : c.toNat < 32 ∨ c.toNat = 127 := by simpa using hcontrol
              obtain ⟨hchar, hliteral⟩ := hexChar?_hexDigit hrange
              rw [Char.ofNat_toNat] at hchar
              exact .escape (by decide) hliteral (Escape.escape_hex hchar)
            · exact .plain ⟨hbackslash, hquote, hfeed⟩

/-- A piece does not start with a quote. -/
theorem Escaped.ne_quote {c : Char} {cs : List Char} (h : Escaped c cs) (tail ds : List Char) :
    cs ++ tail ≠ '"' :: ds := by
  cases h with
  | plain literal => exact fun heq => literal.2.1 (List.cons.inj heq).1
  | escape => simp

/-- A piece stays on its line. -/
theorem Escaped.oneLine {c : Char} {cs : List Char} (h : Escaped c cs) : '\n' ∉ cs := by
  cases h with
  | plain literal => simpa using Ne.symm literal.2.2
  | escape letter literal _ =>
    simp only [List.mem_cons, not_or]
    exact ⟨by decide, letter.symm, fun hfeed => (literal _ hfeed).2.2 rfl⟩

/-! ## The end of a literal -/

namespace Lexeme

theorem stringBody?_literally {c : Char} (h : Literally c) (rest : List Char) :
    stringBody? ['"'] (c :: rest) = (stringBody? ['"'] rest).map (c :: ·) := by
  obtain ⟨hbackslash, hquote, hfeed⟩ := h
  rw [stringBody?.eq_def]
  simp [hbackslash, hfeed, List.isPrefixOf, Ne.symm hquote]

theorem stringBody?_append {ds : List Char} (h : ∀ x ∈ ds, Literally x) (rest : List Char) :
    stringBody? ['"'] (ds ++ rest) = (stringBody? ['"'] rest).map (ds ++ ·) := by
  induction ds with
  | nil => simp
  | cons d ds ih =>
    rw [List.cons_append, stringBody?_literally (h d List.mem_cons_self),
      ih fun x hx => h x (List.mem_cons_of_mem d hx), Option.map_map]
    rfl

/-- The search for the closing quote passes over a piece. -/
theorem stringBody?_escaped {c : Char} {cs : List Char} (h : Escaped c cs) (rest : List Char) :
    stringBody? ['"'] (cs ++ rest) = (stringBody? ['"'] rest).map (cs ++ ·) := by
  cases h with
  | plain literal => exact stringBody?_literally literal rest
  | @escape d ds letter literal meaning =>
    rw [List.cons_append, List.cons_append, stringBody?.eq_def]
    simp only [beq_self_eq_true, if_true]
    rw [stringBody?_append literal, Option.map_map]
    rfl

/-- A literal ends at the quote behind its pieces. -/
theorem stringBody?_quoted (cs rest : List Char) :
    stringBody? ['"'] (cs.flatMap Source.quoteChar ++ '"' :: rest) =
      some (cs.flatMap Source.quoteChar) := by
  induction cs with
  | nil =>
    rw [List.flatMap_nil, List.nil_append, stringBody?.eq_def]
    simp [List.isPrefixOf]
  | cons c cs ih =>
    rw [List.flatMap_cons, List.append_assoc, stringBody?_escaped (escaped_quoteChar c), ih]
    rfl

end Lexeme

/-! ## What a literal denotes -/

namespace Escape

theorem unescapeFrom_append (bytes : Bool) (ds rest : List Char) :
    unescapeFrom bytes ds.length (ds ++ rest) = unescapeFrom bytes 0 rest := by
  induction ds with
  | nil => rfl
  | cons d ds ih => rw [List.length_cons, List.cons_append, unescapeFrom, ih]

/-- A piece is resolved to its character. -/
theorem unescapeFrom_escaped {c : Char} {cs : List Char} (h : Escaped c cs) (rest : List Char) :
    unescapeFrom false 0 (cs ++ rest) = c :: unescapeFrom false 0 rest := by
  cases h with
  | plain literal =>
    have hbackslash : (c == '\\') = false := by simpa using literal.1
    simp [unescapeFrom, hbackslash]
  | @escape d ds letter literal meaning =>
    rw [List.cons_append, List.cons_append, unescapeFrom]
    simp only [beq_self_eq_true, if_true, meaning]
    rw [← List.length_cons (a := d), ← List.cons_append, unescapeFrom_append]
    rfl

/-- **The pieces of a text denote the text.** -/
theorem unescape_quoted (cs : List Char) : unescape false (cs.flatMap Source.quoteChar) = cs := by
  rw [unescape]
  induction cs with
  | nil => rfl
  | cons c cs ih => rw [List.flatMap_cons, unescapeFrom_escaped (escaped_quoteChar c), ih]

end Escape

/-! ## The literal as a lexeme -/

namespace Lexeme

/-- The quote in front of the pieces of a text is a single one. -/
theorem leadingQuote_quoted (cs : List Char) {rest : List Char} (hrest : Delimited rest) :
    leadingQuote ('"' :: (cs.flatMap Source.quoteChar ++ '"' :: rest)) = ['"'] := by
  have hsingle : ∀ tail : List Char, (∀ ds, tail ≠ '"' :: '"' :: ds) →
      leadingQuote ('"' :: tail) = ['"'] := by
    intro tail htail
    unfold leadingQuote
    split
    all_goals simp_all
  refine hsingle _ fun ds heq => ?_
  cases cs with
  | nil =>
    obtain ⟨-, rfl⟩ := List.cons.inj heq
    exact (of_mem_delimiters (hrest '"' rfl)).2.2.2.2.2.2.2.1 rfl
  | cons c cs =>
    rw [List.flatMap_cons, List.append_assoc] at heq
    exact (escaped_quoteChar c).ne_quote _ _ heq

/-- Only the empty mark stands in front of a double quote. -/
theorem stringOpening?_quote {cs : List Char} (h : leadingQuote ('"' :: cs) = ['"']) :
    stringOpening? ('"' :: cs) = some ([], ['"']) := by
  have hlower : Text.lowerChar '"' = '"' := by decide
  simp [stringOpening?, marks, hlower, h]

/-- **A quoted text is read as a string that denotes the text.** -/
theorem next_quoted (s : List Char) {rest : List Char} (hrest : Delimited rest) :
    next (Source.quoteChars s ++ rest) =
      .ok ⟨.token .string (String.ofList s), Source.quoteChars s⟩ := by
  have htext : Source.quoteChars s ++ rest =
      '"' :: (s.flatMap Source.quoteChar ++ '"' :: rest) := by
    simp [Source.quoteChars]
  have hopening := stringOpening?_quote (leadingQuote_quoted s hrest)
  have hrule : stringRule ('"' :: (s.flatMap Source.quoteChar ++ '"' :: rest)) =
      some (.ok ⟨.token .string (String.ofList s), Source.quoteChars s⟩) := by
    simp [stringRule, hopening, stringBody?_quoted, stringKind, stringText,
      Escape.unescape_quoted, Source.quoteChars]
  rw [htext, next_of_not_layout (by decide)]
  simp [hrule]

end Lexeme
end SlotTree

import SlotTree.Proofs.Token.Lines

/-!
# Scanning a quoted text

A text that is quoted and then scanned as a script of its own comes back as one string token
that covers the whole script (`tokenize_quote`).  That the literal is read back, and ends where
it was meant to, is known wherever it stands (`Lexeme.next_quoted`); what is added here is the
script around it and what can be seen on the written form itself.

The written form has no line end in it, because it has no control character at all
(`printable_of_mem_quoteChars`).  And its closing quote is the first quote that is not escaped.
A backslash escapes the character behind it unless it is escaped itself (`escapesNext`), so
this can be told from the left without knowing what escapes there are.  Every piece of the
written form leaves the next character unescaped, and a quote inside a piece has a backslash
right in front of it.
-/

namespace SlotTree

open Text (byteLength)

/-! ## Control characters -/

namespace Source

/-- A written piece has no control character in it. -/
theorem printable_of_mem_quoteChar {c d : Char} (h : d ∈ quoteChar c) : 32 ≤ d.toNat := by
  have hhex : ∀ n < 16, 32 ≤ (Json.hexDigit n).toNat := by decide
  have hpair : ∀ a b : Char, 32 ≤ a.toNat → 32 ≤ b.toNat → d ∈ [a, b] → 32 ≤ d.toNat := by
    intro a b ha hb hd
    rcases List.mem_cons.mp hd with rfl | hd
    · exact ha
    · rwa [List.mem_singleton.mp hd]
  unfold quoteChar at h
  split_ifs at h with hbackslash hquote hfeed hreturn htab hcontrol
  iterate 5
    · exact hpair _ _ (by decide) (by decide) h
  · -- a numeric escape
    have hhigh : c.toNat / 16 < 16 := by
      simp only [Bool.or_eq_true, decide_eq_true_eq, beq_iff_eq] at hcontrol
      omega
    simp only [List.mem_cons, List.not_mem_nil, or_false] at h
    rcases h with rfl | rfl | rfl | rfl
    · decide
    · decide
    · exact hhex _ hhigh
    · exact hhex _ (Nat.mod_lt _ (by decide))
  · obtain rfl := List.mem_singleton.mp h
    simp only [Bool.or_eq_true, decide_eq_true_eq, not_or, Nat.not_lt] at hcontrol
    exact hcontrol.1

/-- **A written literal has no control character in it.** -/
theorem printable_of_mem_quoteChars {cs : List Char} {d : Char} (h : d ∈ quoteChars cs) :
    32 ≤ d.toNat := by
  simp only [quoteChars, List.cons_append, List.mem_cons, List.mem_append, List.mem_flatMap,
    List.not_mem_nil, or_false] at h
  rcases h with rfl | ⟨c, -, hd⟩ | rfl
  · decide
  · exact printable_of_mem_quoteChar hd
  · decide

end Source

/-! ## The closing quote -/

/-- Whether the character behind the given ones is escaped. A backslash escapes the character
behind it, unless it is escaped itself. -/
def escapesNext (cs : List Char) : Bool := cs.foldl (fun escaped c => c == '\\' && !escaped) false

/-- Behind characters that end unescaped, escaping starts afresh. -/
theorem escapesNext_append {cs : List Char} (h : escapesNext cs = false) (ds : List Char) :
    escapesNext (cs ++ ds) = escapesNext ds := by
  rw [escapesNext, List.foldl_append]
  exact congrArg (fun escaped => ds.foldl _ escaped) h

theorem escapesNext_of_literally {cs : List Char} (h : ∀ c ∈ cs, Literally c) :
    escapesNext cs = false := by
  induction cs with
  | nil => rfl
  | cons c cs ih =>
    have hc : (c == '\\') = false := by simpa using (h c List.mem_cons_self).1
    have hsingle : escapesNext [c] = false := by simp [escapesNext, hc]
    rw [← List.singleton_append, escapesNext_append hsingle]
    exact ih fun d hd => h d (List.mem_cons_of_mem c hd)

/-- Every quote among the characters is escaped, and the character behind them is not. -/
structure QuotesEscaped (cs : List Char) : Prop where
  behind : escapesNext cs = false
  inside : ∀ before after, cs = before ++ '"' :: after → escapesNext before = true

theorem QuotesEscaped.append {cs ds : List Char} (h : QuotesEscaped cs) (h' : QuotesEscaped ds) :
    QuotesEscaped (cs ++ ds) := by
  refine ⟨by rw [escapesNext_append h.behind, h'.behind], fun before after heq => ?_⟩
  -- the quote stands in the one part or in the other
  rcases List.append_eq_append_iff.mp heq with ⟨more, rfl, hds⟩ | ⟨more, hcs, hquote⟩
  · rw [escapesNext_append h.behind]
    exact h'.inside more after hds
  · cases more with
    | nil => exact absurd (h'.inside [] after hquote.symm) (by decide)
    | cons c more =>
      obtain ⟨rfl, -⟩ := List.cons.inj hquote
      exact h.inside before more hcs

/-- A piece starts with a backslash if it has a quote in it. -/
theorem Escaped.quotesEscaped {c : Char} {cs : List Char} (h : Escaped c cs) :
    QuotesEscaped cs := by
  cases h with
  | plain literal =>
    refine ⟨escapesNext_of_literally (by simpa using literal), fun before after heq => ?_⟩
    have hquote : '"' ∈ [c] := by simp [heq]
    exact absurd (List.mem_singleton.mp hquote).symm literal.2.1
  | @escape d ds letter literal meaning =>
    have hpair : escapesNext ['\\', d] = false := by simp [escapesNext]
    refine ⟨?_, fun before after heq => ?_⟩
    · exact (escapesNext_append hpair ds).trans (escapesNext_of_literally literal)
    · match before with
      | [] => exact absurd (List.cons.inj heq).1 (by decide)
      | [b] =>
        obtain ⟨rfl, -⟩ := List.cons.inj heq
        rfl
      | _ :: _ :: before =>
        have hds := (List.cons.inj (List.cons.inj heq).2).2
        exact absurd rfl (literal '"' (by simp [hds])).2.1

/-- **Between the quotes of a literal every quote is escaped.** -/
theorem quotesEscaped_quoted (cs : List Char) : QuotesEscaped (cs.flatMap Source.quoteChar) := by
  induction cs with
  | nil => exact ⟨rfl, by simp⟩
  | cons c cs ih =>
    rw [List.flatMap_cons]
    exact (escaped_quoteChar c).quotesEscaped.append ih

/-! ## A script of one token -/

/-- A script that is one lexeme is a token, the end of its line and the end of the script. -/
theorem tokenize_of_next {cs : List Char} {kind : TokenKind} {text : String} (hopens : Opens cs)
    (hnext : Lexeme.next cs = .ok ⟨.token kind text, cs⟩) (file : String) :
    tokenize (String.ofList cs) file =
      .ok [⟨kind, text, ⟨⟨0, file⟩, ⟨byteLength cs, file⟩⟩⟩,
        ⟨.newline, "", ⟨⟨byteLength cs, file⟩, ⟨byteLength cs, file⟩⟩⟩,
        ⟨.eof, "EOF", ⟨⟨byteLength cs, file⟩, ⟨byteLength cs, file⟩⟩⟩] := by
  let s : Scan := { Scan.ofText cs with lineStart := false }
  have hbegin : (Scan.ofText cs).run file = s.run file :=
    Scan.run_of_opens (Scan.AtLine.ofText cs) hopens
  have hread : s.run file = (s.accept file ⟨.token kind text, cs⟩).run file :=
    Scan.run_of_next rfl hnext
  have hend : (s.accept file ⟨.token kind text, cs⟩).run file =
      .ok (s.accept file ⟨.token kind text, cs⟩) := Scan.run_nil (by simp [s, Scan.ofText])
  have hopen : (kind != .newline) = true := by simpa using (Lexeme.kind_ne_of_next hnext).1
  rw [tokenize, String.toList_ofList, hbegin, hread, hend]
  simp [Except.map, s, Scan.accept, Scan.finish, Scan.lineOpen, Scan.emit, Scan.advance,
    Scan.spanOf, Scan.ofText, hopen]

/-- **A quoted text is scanned as the text.**  As a script of its own it is one string token
with the text, which covers all of it, and the ends of the line and of the script.  It has no
line end in it, and the quote at its end is the first one that is not escaped. -/
theorem tokenize_quote (text file : String) :
    let written := (Source.quote text).toList
    let stop : Position := ⟨byteLength written, file⟩
    tokenize (Source.quote text) file =
        .ok [⟨.string, text, ⟨⟨0, file⟩, stop⟩⟩, ⟨.newline, "", ⟨stop, stop⟩⟩,
          ⟨.eof, "EOF", ⟨stop, stop⟩⟩] ∧
      '\n' ∉ written ∧ '\r' ∉ written ∧
      ∃ body, written = '"' :: (body ++ ['"']) ∧ escapesNext body = false ∧
        ∀ before after, body = before ++ '"' :: after → escapesNext before = true := by
  intro written stop
  have hwritten : written = Source.quoteChars text.toList := String.toList_ofList
  have hopens : Opens written := by
    rw [hwritten]
    exact ⟨'"', _, rfl, by decide, by decide⟩
  have hnext : Lexeme.next written = .ok ⟨.token .string text, written⟩ := by
    have hquoted := Lexeme.next_quoted text.toList Lexeme.Delimited.nil
    rwa [List.append_nil, String.ofList_toList, ← hwritten] at hquoted
  have hprintable : ∀ c ∈ written, 32 ≤ c.toNat := by
    rw [hwritten]
    exact fun c hc => Source.printable_of_mem_quoteChars hc
  have hescaped := quotesEscaped_quoted text.toList
  refine ⟨?_, fun hfeed => ?_, fun hreturn => ?_, _, hwritten, hescaped.behind, hescaped.inside⟩
  · have htokens := tokenize_of_next hopens hnext file
    rwa [String.ofList_toList] at htokens
  · exact absurd (hprintable _ hfeed) (by decide)
  · exact absurd (hprintable _ hreturn) (by decide)

end SlotTree

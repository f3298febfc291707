import SlotTree.Proofs.Reading.Complete

/-!
# The language of scripts

The two halves of `SlotTree.Proofs.Reading.Sound` and `SlotTree.Proofs.Reading.Complete`
put together: a list of tokens is read as a block exactly if it is a script of the
grammar, and then the block is what the script denotes.

What is left to say is how a list of tokens becomes a cursor.  The list may hold several
tokens that say that it ends, or none.  Only what stands before the first one counts
(`beforeEnd`), and the block reaches up to it (`endPosition`), wherever the closing token
of the cursor comes from.
-/

namespace SlotTree
namespace Reading

open Parse

/-! ## From tokens to a cursor -/

theorem kind_ne_eof_of_mem_beforeEnd (tokens : List Token) :
    ∀ t ∈ beforeEnd tokens, t.kind ≠ .eof := by
  intro t ht
  simpa using List.all_eq_true.mp List.all_takeWhile t ht

/-- Behind the tokens before the first end stands that end, or nothing. -/
theorem exists_eq_beforeEnd_append (tokens : List Token) :
    ∃ rest, tokens = beforeEnd tokens ++ rest ∧ EndsScript rest := by
  refine ⟨tokens.dropWhile fun t => t.kind != .eof, List.takeWhile_append_dropWhile.symm, ?_⟩
  intro t ht
  have h := List.head?_dropWhile_not (fun t : Token => t.kind != .eof) tokens
  rw [Option.mem_def.mp ht] at h
  simpa using h

/-- The tokens before the first end are the ones that stand before an end and hold
none. -/
theorem beforeEnd_append {ts rest : List Token} (hts : ∀ t ∈ ts, t.kind ≠ .eof)
    (hrest : EndsScript rest) : beforeEnd (ts ++ rest) = ts := by
  rw [beforeEnd, List.takeWhile_append_of_pos fun t ht => by simpa using hts t ht]
  cases rest with
  | nil => simp
  | cons t us => rw [List.takeWhile_cons_of_neg (by simp [hrest t rfl]), List.append_nil]

theorem endPosition_append {ts us : List Token} {t : Token} (hts : ∀ t ∈ ts, t.kind ≠ .eof)
    (ht : t.kind = .eof) (file : String) : endPosition (ts ++ t :: us) file = t.span.start := by
  have hnone : ts.find? (fun t => t.kind == .eof) = none := by
    rw [List.find?_eq_none]
    intro u hu
    simpa using hts u hu
  rw [endPosition, List.find?_append, hnone, Option.none_or,
    List.find?_cons_of_pos (by simp [ht])]

theorem position_skip {c : Cursor} {ts us : List Token} {t : Token}
    (h : c.ahead = ts ++ t :: us) : (c.skip ts.length).position = t.span.start := by
  have hbehind : (c.skip ts.length).ahead = t :: us := by
    rw [Cursor.ahead_skip, h, List.drop_left]
  rw [Cursor.position, Cursor.current_of_ahead hbehind]

theorem position_of_ahead_nil {c : Cursor} (h : c.ahead = []) :
    c.position = c.closing.span.start := by
  rw [Cursor.position, Cursor.current, h, List.headD_nil]

/-- A cursor at the start of a list of tokens has the ones before the first end ahead of
it, and behind them it stands where the list ends. -/
theorem ahead_ofTokens (tokens : List Token) (file : String) :
    ∃ rest, (Cursor.ofTokens tokens file).ahead = beforeEnd tokens ++ rest ∧ EndsScript rest ∧
      ((Cursor.ofTokens tokens file).skip (beforeEnd tokens).length).position =
        endPosition tokens file := by
  obtain ⟨rest, hsplit, hrest⟩ := exists_eq_beforeEnd_append tokens
  have hts := kind_ne_eof_of_mem_beforeEnd tokens
  generalize beforeEnd tokens = ts at hsplit hts ⊢
  subst hsplit
  rcases List.eq_nil_or_concat rest with rfl | ⟨us, last, rfl⟩
  · -- no token says that the list ends, so a closing token is added
    rw [List.append_nil]
    have hnone : ts.find? (fun t => t.kind == .eof) = none := by
      rw [List.find?_eq_none]
      intro u hu
      simpa using hts u hu
    have hend : endPosition ts file = (ts.getLast?.map fun t => t.span.stop).getD ⟨0, file⟩ := by
      rw [endPosition, hnone]
    have hahead : (Cursor.ofTokens ts file).ahead = ts ∧
        (Cursor.ofTokens ts file).endSpan.start = endPosition ts file := by
      rw [hend, Cursor.ofTokens]
      cases hlast : ts.getLast? with
      | none => exact ⟨(List.getLast?_eq_none_iff.mp hlast).symm, rfl⟩
      | some last =>
        have hkind : (last.kind == .eof) = false := by
          simpa using hts last (List.mem_of_getLast? hlast)
        simp [hkind]
    refine ⟨[], by rw [hahead.1, List.append_nil], by simp [EndsScript], ?_⟩
    have hnil : ((Cursor.ofTokens ts file).skip ts.length).ahead = [] := by
      rw [Cursor.ahead_skip, hahead.1, List.drop_length]
    rw [position_of_ahead_nil hnil, Cursor.closing_skip, ← hahead.2]
    rfl
  · obtain ⟨t, vs, hcons⟩ : ∃ t vs, us ++ [last] = t :: vs := by
      cases us with
      | nil => exact ⟨last, [], rfl⟩
      | cons u us => exact ⟨u, us ++ [last], rfl⟩
    have ht : t.kind = .eof := hrest t (by rw [List.concat_eq_append, hcons]; rfl)
    rw [List.concat_eq_append, hcons, endPosition_append hts ht, ← hcons, ← List.append_assoc,
      Cursor.ofTokens]
    simp only [List.getLast?_append, List.getLast?_singleton, Option.some_or]
    split
    · -- the last token closes the list; it may be the first end
      refine ⟨us, by simp, ?_, ?_⟩
      · intro u hu
        exact hrest u (by rw [List.concat_eq_append, List.head?_append, Option.mem_def.mp hu]; rfl)
      · cases us with
        | nil =>
          obtain rfl : last = t := (List.cons.inj hcons).1
          rw [position_of_ahead_nil (by simp), Cursor.closing_skip]
          rfl
        | cons u us =>
          obtain rfl : u = t := (List.cons.inj hcons).1
          have hahead : (ts ++ u :: us ++ [last]).dropLast = ts ++ u :: us := List.dropLast_concat
          exact position_skip hahead
    · refine ⟨us ++ [last], by simp, by rwa [List.concat_eq_append] at hrest, ?_⟩
      have hahead : ts ++ us ++ [last] = ts ++ t :: vs := by rw [List.append_assoc, hcons]
      exact position_skip hahead

/-! ## Reading a list of tokens -/

/-- A list of tokens is read exactly if its statements are, up to the first end. -/
theorem readTokens_eq_ok_iff {tokens : List Token} {file : String} {b : Block} :
    readTokens .default tokens file = .ok b ↔
      DerivesScript (beforeEnd tokens) b.body ∧
        b.span = ⟨⟨0, file⟩, endPosition tokens file⟩ := by
  obtain ⟨rest, hahead, hrest, hposition⟩ := ahead_ofTokens tokens file
  constructor
  · intro h
    obtain ⟨c', hscript⟩ : ∃ c', script .default file (.ofTokens tokens file) = (.ok b, c') :=
      ⟨_, Prod.ext h rfl⟩
    rw [script, look_bind_run, bind_eq_ok_iff] at hscript
    obtain ⟨body, c₁, hbody, hscript⟩ := hscript
    obtain ⟨heof, ts, hpass, hts⟩ := stmts_sound hbody
    have hends : EndsScript c₁.ahead := by
      intro t ht
      obtain ⟨us, hus⟩ := List.head?_eq_some_iff.mp ht
      rwa [Cursor.kind_of_ahead hus] at heof
    have hbefore : beforeEnd tokens = ts := by
      rw [← beforeEnd_append (kind_ne_eof_of_mem_beforeEnd tokens) hrest, ← hahead, hpass.ahead,
        beforeEnd_append hts.kind_ne_eof hends]
    rw [look_bind_run] at hscript
    obtain ⟨rfl, rfl⟩ := pure_eq_ok_iff.mp hscript
    refine ⟨by rwa [hbefore], ?_⟩
    rw [← hposition, hbefore, ← hpass.stands]
  · rintro ⟨hts, hspan⟩
    obtain ⟨body, span⟩ := b
    simp only at hts hspan
    have hrounds : (beforeEnd tokens).length < (Cursor.ofTokens tokens file).remaining := by
      rw [Cursor.remaining, hahead, List.length_append]
      omega
    rw [readTokens, script, look_bind_run,
      bind_run_of_ok (hts.stmts_run hrounds hahead hrest), look_bind_run, pure_run, hposition,
      hspan]

/-- An annotation is read exactly where one of the grammar stands, and nothing that could
belong to it follows. -/
theorem type_eq_ok_iff {c c' : Cursor} {type : Ty} :
    Reading.type .default .lowest c = (.ok type, c') ↔
      ∃ ts, c.Passes ts c' ∧ DerivesType ts type ∧ Grammar.script.typePower? c'.kind = none := by
  constructor
  · intro h
    obtain ⟨hstop, ts, hpass, hts⟩ := typeUpTo_sound h
    exact ⟨ts, hpass, hts, hstop⟩
  · rintro ⟨ts, hpass, hts, hstop⟩
    obtain ⟨hahead, rfl⟩ := hpass
    exact hts.type_run hahead hstop

/-- **The reader accepts exactly the grammar.**  A list of tokens is read as a block if
and only if the tokens before its first end are a script of the grammar, and the block
then holds the statements that the script denotes; and where the grammar says annotation,
it means what is read as a type. -/
theorem readTokens_accepts_grammar :
    (∀ (tokens : List Token) (file : String) (b : Block),
      readTokens .default tokens file = .ok b ↔
        DerivesScript (beforeEnd tokens) b.body ∧
          b.span = ⟨⟨0, file⟩, endPosition tokens file⟩) ∧
    ∀ (c c' : Cursor) (type : Ty),
      Reading.type .default .lowest c = (.ok type, c') ↔
        ∃ ts, c.Passes ts c' ∧ DerivesType ts type ∧
          Grammar.script.typePower? c'.kind = none :=
  ⟨fun _ _ _ => readTokens_eq_ok_iff, fun _ _ _ => type_eq_ok_iff⟩

end Reading
end SlotTree

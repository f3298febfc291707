import SlotTree.Proofs.Reading.Dependence
import SlotTree.Proofs.Token.Seam

/-!
# Faults are located

Every fault in a script, whichever stage finds it, stands in the file of the script and between
two characters of it (`liesIn_of_readSource`).  So there is a line to show: every offset that is not
past a text has one (`exists_placeIn_lines`).

The scanner fails only where it stands, and it stands where the text that it has laid ends
(`Scan.Covers.located`).  What the readers put into a fault is where some token begins, which is a
fact about the readers alone (`Setting.readTokens_agree`); that tokens begin between two characters
is known from what they cover, and that they belong to the file from the scanner
(`Scan.file_of_mem_emitted`).
-/

namespace SlotTree

open Text (byteLength charsBefore? lineAt? placeIn lines LinePlace)

/-! ## The line of an offset -/

namespace Text

/-- The place is that of the offset: its text is a whole line of the text, numbered by the line
feeds before it, and its column leads to the offset. -/
structure LinePlace.Shows (place : LinePlace) (first : Nat) (text : List Char) (offset : Nat)
    (before after : List Char) : Prop where
  text_eq : text = before ++ (place.text ++ after)
  offset_eq : offset = byteLength before + place.column
  number_eq : place.number = first + before.count '\n'
  begins : before = [] ∨ before.getLast? = some '\n'
  ends : after = [] ∨ place.text.getLast? = some '\n'
  oneLine : '\n' ∉ place.text.dropLast

/-- An offset in the first line. -/
theorem placeIn_first {first offset : Nat} {l : List Char} (ls : List (List Char))
    (h : offset < byteLength l) : placeIn first offset (l :: ls) = some ⟨first, l, offset⟩ := by
  rw [placeIn, if_pos h]

/-- An offset behind a line that a line feed ends. -/
theorem placeIn_next {first offset : Nat} {l : List Char} (ls : List (List Char))
    (h : byteLength (l ++ ['\n']) ≤ offset) :
    placeIn first offset ((l ++ ['\n']) :: ls) =
      placeIn (first + 1) (offset - byteLength (l ++ ['\n'])) ls := by
  rw [placeIn, if_neg (Nat.not_lt.mpr h), if_neg (by simp)]

/-- A text without line feeds is its one line, and its end belongs to it. -/
theorem placeIn_lines_of_not_mem {text : List Char} (htext : '\n' ∉ text) (first : Nat)
    {offset : Nat} (h : offset ≤ byteLength text) :
    placeIn first offset (lines text) = some ⟨first, text, offset⟩ := by
  rw [lines_of_not_mem htext]
  split
  · next hnil =>
    subst hnil
    obtain rfl : offset = 0 := Nat.le_zero.mp h
    rfl
  · rcases Nat.lt_or_eq_of_le h with hlt | rfl
    · exact placeIn_first [] hlt
    · have hlast : text.getLast? ≠ some '\n' := fun hlast => htext (List.mem_of_getLast? hlast)
      simp [placeIn, hlast]

/-- **Every offset that is not past the text has a line.** -/
theorem exists_placeIn_lines (text : List Char) (first : Nat) {offset : Nat}
    (h : offset ≤ byteLength text) :
    ∃ place before after, placeIn first offset (lines text) = some place ∧
      place.Shows first text offset before after := by
  induction hlength : text.length using Nat.strongRecOn generalizing text first offset with
  | _ length ih =>
    by_cases hfeed : '\n' ∈ text
    · -- the first line ends at the first line feed
      obtain ⟨l, rest, rfl, hl⟩ := List.eq_append_cons_of_mem hfeed
      have hsplit :
          byteLength (l ++ '\n' :: rest) = byteLength (l ++ ['\n']) + byteLength rest := by
        rw [← byteLength_append, List.append_assoc]
        rfl
      rw [lines_append hl]
      rcases Nat.lt_or_ge offset (byteLength (l ++ ['\n'])) with hlt | hge
      · refine ⟨_, [], rest, placeIn_first _ hlt, by simp, by simp, by simp, .inl rfl, .inr ?_, ?_⟩
        · simp
        · simpa using hl
      · rw [placeIn_next _ hge]
        have hshorter : rest.length < length := by
          rw [← hlength, List.length_append, List.length_cons]
          omega
        have hrest : offset - byteLength (l ++ ['\n']) ≤ byteLength rest := by omega
        obtain ⟨place, before, after, hplace, hshows⟩ :=
          ih rest.length hshorter rest (first + 1) hrest rfl
        refine ⟨place, l ++ '\n' :: before, after, hplace, ?_, ?_, ?_, .inr ?_, hshows.ends,
          hshows.oneLine⟩
        · rw [hshows.text_eq, List.append_assoc, List.cons_append]
        · have hoffset := hshows.offset_eq
          have hbefore : byteLength (l ++ '\n' :: before) =
              byteLength (l ++ ['\n']) + byteLength before := by
            rw [← byteLength_append, List.append_assoc]
            rfl
          omega
        · have hnone : l.count '\n' = 0 := List.count_eq_zero.mpr hl
          rw [hshows.number_eq, List.count_append, List.count_cons_self, hnone]
          omega
        · rcases hshows.begins with rfl | hlast
          · simp
          · simp [List.getLast?_append, List.getLast?_cons, hlast]
    · have hdropLast : '\n' ∉ text.dropLast := fun hmem => hfeed (List.dropLast_subset text hmem)
      exact ⟨⟨first, text, offset⟩, [], [], placeIn_lines_of_not_mem hfeed first h, by simp,
        by simp, by simp, .inl rfl, .inl rfl, hdropLast⟩

end Text

/-! ## Where positions lie -/

/-- The position belongs to the file, and lies between two characters of its text. -/
structure Position.LiesIn (p : Position) (file : String) (text : List Char) : Prop where
  file_eq : p.file = file
  inside : p.offset ≤ byteLength text
  bounded : (charsBefore? text p.offset).isSome

/-- An offset between two characters cuts the text. -/
theorem Text.exists_append_of_charsBefore? {text : List Char} {offset : Nat}
    (h : (charsBefore? text offset).isSome) :
    ∃ before after, text = before ++ after ∧ offset = byteLength before := by
  fun_induction charsBefore? text offset with
  | case1 text => exact ⟨[], text, rfl, rfl⟩
  | case2 n => cases h
  | case3 c cs n hle ih =>
    rw [Option.isSome_map] at h
    obtain ⟨before, after, rfl, hn⟩ := ih h
    refine ⟨c :: before, after, rfl, ?_⟩
    rw [byteLength_cons, ← hn]
    omega
  | case4 c cs n hle => cases h

namespace Scan

variable {text : List Char} {file : String} {s s' : Scan} {fault : Fault}

/-- **The scanner stands between two characters.** -/
theorem Covers.liesIn (h : s.Covers text) (file : String) : (s.position file).LiesIn file text := by
  obtain ⟨done, hoffset, laid⟩ := h
  have htext := laid.text_eq
  refine ⟨rfl, ?_, ?_⟩
  · rw [position, hoffset, htext, Text.byteLength_append]
    exact Nat.le_add_right _ _
  · rw [position, hoffset, htext, Text.charsBefore?_append]
    rfl

theorem position_of_indentTo_error {target : Nat} (h : s.indentTo file target = .error fault) :
    fault.position = s.position file := by
  unfold indentTo at h
  split at h
  · split at h
    · cases h
    · cases h
      rfl
  · simp only at h
    split at h
    · cases h
      rfl
    · cases h

/-- Beginning a line fails behind its indentation. -/
theorem Covers.liesIn_of_beginLine (h : s.Covers text) (hline : s.beginLine file = .error fault) :
    fault.position.LiesIn file text := by
  have hblanks : (s.advance (s.rest.takeWhile Lexeme.isSpace)).Covers text :=
    h.skip List.takeWhile_append_dropWhile.symm (.blanks fun c hc => List.mem_takeWhile_imp hc)
  unfold Scan.beginLine at hline
  simp only at hline
  split at hline
  · cases hline
  · split at hline
    · cases hline
    · rw [position_of_indentTo_error hline]
      exact hblanks.liesIn file

theorem Covers.liesIn_of_step (h : s.Covers text) (hstep : s.step file = .error fault) :
    fault.position.LiesIn file text := by
  unfold Scan.step at hstep
  split at hstep
  · next hmid =>
    cases hstep
    split at hmid
    · exact h.liesIn_of_beginLine hmid
    · cases hmid
  · next mid hmid =>
    have hcovers : mid.Covers text := by
      split at hmid
      · exact h.beginLine hmid
      · cases hmid
        exact h
    split at hstep
    · cases hstep
    · unfold Scan.readLexeme at hstep
      split at hstep
      · cases hstep
        exact hcovers.liesIn file
      · cases hstep

/-- **A fault of the scanner lies in the text.** -/
theorem Covers.liesIn_of_run (h : s.Covers text) (hrun : s.run file = .error fault) :
    fault.position.LiesIn file text := by
  fun_induction Scan.run file s with
  | case1 s hnil => cases hrun
  | case2 s hne fault' hfault =>
    cases hrun
    exact h.liesIn_of_step hfault
  | case3 s hne next hnext ih => exact ih (h.step hnext) hrun

end Scan

/-- The tokens of a script account for all of it. -/
theorem lossless_of_run {text : List Char} {file : String} {s : Scan}
    (h : Scan.run file (.ofText text) = .ok s) :
    Lossless file text (s.finish file).emitted.reverse := by
  obtain ⟨hcovers, hrest⟩ := (Scan.Covers.ofText text).run h
  obtain ⟨emitted, hfinish, laid⟩ := hcovers.tiled_finish hrest file
  rw [hfinish]
  exact laid.lossless

/-- **A token begins in its script.** -/
theorem liesIn_of_mem_tokenize {source file : String} {tokens : List Token}
    (h : tokenize source file = .ok tokens) {t : Token} (ht : t ∈ tokens) :
    t.span.start.LiesIn file source.toList := by
  obtain ⟨s, hrun, rfl⟩ := tokenize_eq_ok_iff.mp h
  have hlossless := lossless_of_run hrun
  obtain ⟨hle, hinside⟩ := hlossless.inside t ht
  refine ⟨?_, hle.trans hinside, (hlossless.bounded t ht).1⟩
  rw [Scan.emitted_finish] at ht
  rcases List.mem_append.mp ht with ht | ht
  · exact Scan.file_of_mem_emitted hrun (List.mem_reverse.mp ht)
  · rw [Scan.span_of_mem_closing ht]
    rfl

namespace Reading

/-- A builtin that every script knows stands where it is mentioned. -/
theorem span_of_find?_default {name : String} {constructor : Constructor}
    (h : Registry.default.find? name = some constructor) (span : Span) :
    (constructor span).span = span := by
  rcases Registry.find?_default h with ⟨c, -, rfl⟩ | rfl | ⟨-, rfl⟩
  · rfl
  · rfl
  · rfl

/-- **A fault in a script lies in it**, whether the scanner or a reader finds it. -/
theorem liesIn_of_readSource {source file : String} {fault : Fault}
    (h : readSource source file = .error fault) :
    fault.position.LiesIn file source.toList := by
  unfold readSource at h
  split at h
  · next tokens htokens =>
    let w : Setting := ⟨.script, .default, .default, fun p => p.LiesIn file source.toList⟩
    have hallows : ∀ t ∈ tokens, w.Allows t := by
      intro t ht
      have hstart := liesIn_of_mem_tokenize htokens ht
      refine ⟨hstart, fun _ => rfl, fun _ constructor hfind => ?_⟩
      rwa [span_of_find?_default hfind]
    have hclosing : w.placed (Cursor.ofTokens tokens file).closing.span.start := by
      obtain ⟨s, hrun, rfl⟩ := tokenize_eq_ok_iff.mp htokens
      have hlast := (lossless_of_run hrun).closed
      rw [Cursor.ofTokens, hlast]
      exact liesIn_of_mem_tokenize htokens (List.mem_of_getLast? hlast)
    exact (w.readTokens_agree hallows hclosing).2 fault h
  · next fault' hfault =>
    cases h
    unfold tokenize at hfault
    cases hrun : Scan.run file (.ofText source.toList) with
    | error fault'' =>
      rw [hrun] at hfault
      cases hfault
      exact (Scan.Covers.ofText source.toList).liesIn_of_run hrun
    | ok s =>
      rw [hrun] at hfault
      cases hfault

end Reading
end SlotTree

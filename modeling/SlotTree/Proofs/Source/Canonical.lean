import SlotTree.Proofs.Token.Lines

/-!
# The canonical layout

The layout of source text is defined on lines that keep their line feed, because these put together
are the text.  Its meaning is about the other kind of lines, those without their line ends
(`bareLines`): what stands between the line feeds of a text, where a carriage return in front of a
line feed belongs to the line end and a line feed at the very end begins no further line.  For what
the layout keeps of a line the two kinds make no difference, since line feeds and carriage returns
are blank (`map_trimRight_lines`).

From then on a text is a row of trimmed lines.  The layout drops the empty ones at the end
(`rdropWhile_cases`), puts a line feed behind each of the others and changes nothing else, so
that its lines are the lines that it was made of (`bareLines_endLines`).  They are trimmed and the
last of them is not empty, and so a second layout finds nothing to do.
-/

namespace SlotTree
namespace Text

/-! ## Lines without their ends -/

/-- A line in front of a line feed, without the carriage return that belongs to the line end. -/
def dropReturn (l : List Char) : List Char := if l.getLast? = some '\r' then l.dropLast else l

/-- The lines of a text without their line ends. -/
def bareLines (cs : List Char) : List (List Char) :=
  let pieces := cs.splitOn '\n'
  pieces.dropLast.map dropReturn ++ (pieces.getLast?.filter (· ≠ [])).toList

/-- No character of a line is a line feed. -/
theorem beq_feed_eq_false {l : List Char} (h : '\n' ∉ l) : ∀ c ∈ l, (c == '\n') = false := by
  intro c hc
  rw [beq_eq_false_iff_ne]
  rintro rfl
  exact h hc

theorem bareLines_append {l : List Char} (h : '\n' ∉ l) (rest : List Char) :
    bareLines (l ++ '\n' :: rest) = dropReturn l :: bareLines rest := by
  have hsplit : (l ++ '\n' :: rest).splitOn '\n' = l :: rest.splitOn '\n' :=
    List.splitOnP_append_cons_of_forall_mem (beq_feed_eq_false h) _ (beq_self_eq_true _) rest
  obtain ⟨p, ps, hps⟩ := List.exists_cons_of_ne_nil (List.splitOn_ne_nil '\n' rest)
  simp only [bareLines, hsplit, hps, List.dropLast_cons_cons, List.map_cons,
    List.getLast?_cons_cons, List.cons_append]

theorem bareLines_of_not_mem {l : List Char} (h : '\n' ∉ l) :
    bareLines l = if l = [] then [] else [l] := by
  have hsplit : l.splitOn '\n' = [l] := List.splitOnP_eq_singleton (beq_feed_eq_false h)
  simp only [bareLines, hsplit]
  by_cases hl : l = []
  · simp [hl]
  · simp [hl, Option.filter]

/-- A text is its last line, or a line with a line feed behind it and a text. -/
theorem lineInduction {motive : List Char → Prop} (last : ∀ l, '\n' ∉ l → motive l)
    (line : ∀ l rest, '\n' ∉ l → motive rest → motive (l ++ '\n' :: rest)) (cs : List Char) :
    motive cs := by
  induction hn : cs.length using Nat.strong_induction_on generalizing cs with
  | _ n ih =>
    by_cases hmem : '\n' ∈ cs
    · obtain ⟨l, rest, rfl, hl⟩ := List.eq_append_cons_of_mem hmem
      refine line l rest hl (ih rest.length ?_ rest rfl)
      rw [← hn, List.length_append, List.length_cons]
      omega
    · exact last cs hmem

/-- No line has a line feed in it. -/
theorem feed_not_mem_of_mem_bareLines {cs l : List Char} (h : l ∈ bareLines cs) : '\n' ∉ l := by
  induction cs using lineInduction with
  | last k hk =>
    rw [bareLines_of_not_mem hk] at h
    split at h
    · cases h
    · rwa [List.mem_singleton.mp h]
  | line k rest hk ih =>
    rw [bareLines_append hk] at h
    rcases List.mem_cons.mp h with rfl | h
    · unfold dropReturn
      split
      · exact fun hmem => hk (List.dropLast_subset k hmem)
      · exact hk
    · exact ih h

/-! ## Trimmed lines -/

/-- Behind a cut end nothing is left, or something that fails the test. -/
theorem rdropWhile_cases {α : Type} (p : α → Bool) (l : List α) :
    l.rdropWhile p = [] ∨ ∃ init last, l.rdropWhile p = init ++ [last] ∧ p last = false := by
  by_cases hnil : l.rdropWhile p = []
  · exact .inl hnil
  · refine .inr ⟨_, _, (List.dropLast_append_getLast hnil).symm, ?_⟩
    exact Bool.eq_false_iff.mpr (List.rdropWhile_last_not p l hnil)

/-- The carriage return of a line end is blank. -/
theorem rdropWhile_dropReturn (l : List Char) :
    (dropReturn l).rdropWhile isBlank = l.rdropWhile isBlank := by
  unfold dropReturn
  split
  · next h =>
    obtain ⟨init, rfl⟩ := List.getLast?_eq_some_iff.mp h
    rw [List.dropLast_concat, List.rdropWhile_concat_pos _ _ _ (by decide)]
  · rfl

/-- **Trimmed lines are the same whether the line ends were kept or not.** -/
theorem map_trimRight_lines (cs : List Char) :
    (lines cs).map trimRight = (bareLines cs).map (List.rdropWhile isBlank) := by
  induction cs using lineInduction with
  | last l hl =>
    rw [lines_of_not_mem hl, bareLines_of_not_mem hl]
    split
    · rfl
    · rw [List.map_singleton, List.map_singleton, trimRight_eq]
  | line l rest hl ih =>
    rw [lines_append hl, bareLines_append hl, List.map_cons, List.map_cons, ih,
      rdropWhile_dropReturn, trimRight_eq, List.rdropWhile_concat_pos _ _ _ (by decide)]

end Text

namespace Source

open Text

/-! ## What the layout keeps -/

/-- What is kept of a text: the trimmed lines up to the last one that is not empty. -/
def keptLines (cs : List Char) : List (List Char) :=
  ((bareLines cs).map (List.rdropWhile isBlank)).rdropWhile List.isEmpty

theorem formatChars_eq (cs : List Char) : formatChars cs = endLines (keptLines cs) := by
  rw [formatChars, map_trimRight_lines, dropEndWhile_eq, keptLines]

/-- The kept lines are trimmed. -/
theorem closes_of_mem_keptLines {cs l : List Char} (h : l ∈ keptLines cs) :
    '\n' ∉ l ∧ (l = [] ∨ Closes l) := by
  obtain ⟨k, hk, rfl⟩ := List.mem_map.mp ((List.rdropWhile_prefix _ _).subset h)
  refine ⟨fun hfeed => ?_, rdropWhile_cases isBlank k⟩
  exact feed_not_mem_of_mem_bareLines hk ((List.rdropWhile_prefix isBlank k).subset hfeed)

/-- A trimmed line has no carriage return to lose. -/
theorem dropReturn_of_closes {l : List Char} (h : l = [] ∨ Closes l) : dropReturn l = l := by
  unfold dropReturn
  rw [if_neg]
  rcases h with rfl | ⟨ds, c, rfl, hc⟩
  · simp
  · rw [List.getLast?_concat]
    rintro ⟨⟩
    exact absurd hc (by decide)

/-- **The lines of a layout are those that it was made of.** -/
theorem bareLines_endLines {ls : List (List Char)} (h : ∀ l ∈ ls, '\n' ∉ l ∧ (l = [] ∨ Closes l)) :
    bareLines (endLines ls) = ls := by
  induction ls with
  | nil => rfl
  | cons l ls ih =>
    obtain ⟨hline, hcloses⟩ := h l List.mem_cons_self
    have htext : endLines (l :: ls) = l ++ '\n' :: endLines ls := by simp [endLines]
    rw [htext, bareLines_append hline, dropReturn_of_closes hcloses,
      ih fun k hk => h k (List.mem_cons_of_mem l hk)]

/-- **A layout is in canonical layout.** -/
theorem formatChars_formatChars (cs : List Char) :
    formatChars (formatChars cs) = formatChars cs := by
  have hlines : bareLines (endLines (keptLines cs)) = keptLines cs :=
    bareLines_endLines fun l hl => closes_of_mem_keptLines hl
  have htrimmed : (keptLines cs).map (List.rdropWhile isBlank) = keptLines cs := by
    have hfixed : ∀ l ∈ keptLines cs, l.rdropWhile isBlank = id l := fun l hl => by
      rw [← trimRight_eq, (trimRight_of_closes (closes_of_mem_keptLines hl).2).1, id]
    rw [List.map_congr_left hfixed, List.map_id]
  have hkept : (keptLines cs).rdropWhile List.isEmpty = keptLines cs :=
    List.rdropWhile_idempotent _ _
  rw [formatChars_eq cs, formatChars_eq, keptLines, hlines, htrimmed, hkept]

/-- Nothing is kept of a text without anything visible on a line. -/
theorem keptLines_eq_nil_iff {cs : List Char} :
    keptLines cs = [] ↔ ∀ l ∈ bareLines cs, ∀ c ∈ l, isBlank c = true := by
  rw [keptLines, List.rdropWhile_eq_nil_iff, List.forall_mem_map]
  simp only [List.isEmpty_iff, List.rdropWhile_eq_nil_iff]

/-- **The canonical layout of a text.**  It is empty if there is nothing but blanks on any line.
Otherwise its lines are the lines of the text without the blanks at their ends, up to the last one
that is not empty then, with a line feed between any two of them and one at the end.  In canonical
layout a text stays as it is. -/
theorem format_canonical (text : String) :
    (format text = "" ↔ ∀ l ∈ bareLines text.toList, ∀ c ∈ l, isBlank c = true) ∧
      (format text = "" ∨ ∃ init last n,
        (bareLines text.toList).map (List.rdropWhile isBlank) =
          init ++ last :: List.replicate n [] ∧ last ≠ [] ∧
        (format text).toList = ['\n'].intercalate (init ++ [last]) ++ ['\n'] ∧
        (['\n'].intercalate (init ++ [last])).getLast? ≠ some '\n' ∧
        bareLines (format text).toList = init ++ [last]) ∧
      format (format text) = format text := by
  have htext : (format text).toList = endLines (keptLines text.toList) := by
    rw [format, String.toList_ofList, formatChars_eq]
  have hempty : format text = "" ↔ keptLines text.toList = [] := by
    rw [← String.toList_inj, htext]
    cases keptLines text.toList <;> simp [endLines]
  refine ⟨hempty.trans keptLines_eq_nil_iff, ?_, ?_⟩
  · rcases rdropWhile_cases List.isEmpty ((bareLines text.toList).map (List.rdropWhile isBlank))
      with hnil | ⟨init, last, hkept, hvisible⟩
    · exact Or.inl (hempty.mpr hnil)
    · obtain ⟨n, hn⟩ :=
        exists_dropEmptyEnd_append ((bareLines text.toList).map (List.rdropWhile isBlank))
      have hlast : last ≠ [] := List.isEmpty_eq_false_iff.mp hvisible
      have hlines : keptLines text.toList = init ++ [last] := hkept
      have hcloses : ∀ l ∈ init ++ [last], '\n' ∉ l ∧ (l = [] ∨ Closes l) := by
        intro l hl
        rw [← hlines] at hl
        exact closes_of_mem_keptLines hl
      refine Or.inr ⟨init, last, n, ?_, hlast, ?_, ?_, ?_⟩
      · rw [hkept] at hn
        rw [hn, List.append_assoc, List.singleton_append]
      · rw [htext, hlines, intercalate_append]
        simp [endLines]
      · -- the text ends as its last line does
        have hlast' : '\n' ∉ last := (hcloses last (by simp)).1
        rw [intercalate_append, List.getLast?_append_of_ne_nil _ hlast]
        exact fun hfeed => hlast' (List.mem_of_getLast? hfeed)
      · rw [htext, hlines, bareLines_endLines hcloses]
  · rw [format, format, String.toList_ofList, formatChars_formatChars]

/-- Line ends of both kinds, blanks of several kinds, and empty lines inside and at the end. -/
example : format "a \u2028\r\n\x0c\n\tb\u3000\n \r\n" = "a\n\n\tb\n" := by decide

end Source
end SlotTree

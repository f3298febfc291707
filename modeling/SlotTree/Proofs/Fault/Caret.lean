import SlotTree.Fault.Report
import SlotTree.Proofs.Reading.Located
import SlotTree.Proofs.Source.Canonical

/-!
# The caret of a report

A report quotes the line of a fault and puts a caret below it.  The line is quoted behind its
number, without its margin and without the blanks at its end, and the caret stands behind a row of
dashes; positions count bytes, columns count characters.  All of this has to cancel out.

The text is cut at the fault, into what comes before it and what comes after it.  Of the first the
last line counts (`lineBefore`), of the second the first line (`lineAfter`), and together they are
the line that is quoted (`placeIn_lines_append`).  A `Drawing` is the end of a report, and where
its caret points can be said without looking at the source again: under the place where the quoted
line goes on with what comes after the fault (`Drawing.PointsAt`).

The caret points at the fault in every report that can be printed, and a report can be printed up
to a column of the quoted line that does not depend on anything else (`report?_points`).
-/

namespace SlotTree

open Text (byteLength charsBefore? lineAt? placeIn lines trimRight isBlank LinePlace)

/-! ## The line around an offset -/

namespace Text

/-- What stands on the last line of a text. -/
def lineBefore (before : List Char) : List Char := before.rtakeWhile (· != '\n')

/-- What stands on the first line of a text, without its end. -/
def lineAfter (after : List Char) : List Char := after.takeWhile (· != '\n')

/-- The line feed that ends the first line of a text, if there is one. -/
def lineFeed (after : List Char) : List Char := (after.dropWhile (· != '\n')).take 1

theorem bne_feed_eq_true {l : List Char} (h : '\n' ∉ l) : ∀ c ∈ l, (c != '\n') = true := by
  intro c hc
  rw [bne, beq_feed_eq_false h c hc, Bool.not_false]

theorem lineBefore_of_not_mem {l : List Char} (h : '\n' ∉ l) : lineBefore l = l :=
  List.rtakeWhile_eq_self_iff.mpr (bne_feed_eq_true h)

/-- Whole lines before the last one do not matter. -/
theorem lineBefore_append_feed (l rest : List Char) :
    lineBefore (l ++ '\n' :: rest) = lineBefore rest := by
  have hsplit : (l ++ '\n' :: rest).reverse = rest.reverse ++ '\n' :: l.reverse := by simp
  rw [lineBefore, lineBefore, List.rtakeWhile, List.rtakeWhile, hsplit]
  congr 1
  induction rest.reverse with
  | nil => rfl
  | cons c cs ih =>
    rw [List.cons_append, List.takeWhile_cons, List.takeWhile_cons, ih]

theorem lineAfter_of_not_mem {l : List Char} (h : '\n' ∉ l) :
    lineAfter l = l ∧ lineFeed l = [] := by
  have hplain := bne_feed_eq_true h
  refine ⟨List.takeWhile_eq_self_iff.mpr hplain, ?_⟩
  rw [lineFeed, List.dropWhile_eq_nil_iff.mpr hplain, List.take_nil]

theorem lineAfter_append_feed {l : List Char} (h : '\n' ∉ l) (rest : List Char) :
    lineAfter (l ++ '\n' :: rest) = l ∧ lineFeed (l ++ '\n' :: rest) = ['\n'] := by
  have hplain := bne_feed_eq_true h
  refine ⟨?_, ?_⟩
  · rw [lineAfter, List.takeWhile_append_of_pos hplain, List.takeWhile_cons_of_neg (by decide),
      List.append_nil]
  · rw [lineFeed, List.dropWhile_append_of_pos hplain, List.dropWhile_cons_of_neg (by decide)]
    rfl

theorem feed_not_mem_lineBefore (before : List Char) : '\n' ∉ lineBefore before := by
  intro h
  have hne := List.mem_rtakeWhile_imp h
  simp at hne

theorem feed_not_mem_lineAfter (after : List Char) : '\n' ∉ lineAfter after := by
  intro h
  have hne := List.mem_takeWhile_imp h
  simp at hne

/-- A text is its first line, with the line feed that ends it and more, or it is one line. -/
theorem lineFeed_cases (after : List Char) :
    lineFeed after = [] ∧ lineAfter after = after ∨
      ∃ rest, lineFeed after = ['\n'] ∧ after = lineAfter after ++ '\n' :: rest := by
  by_cases hfeed : '\n' ∈ after
  · obtain ⟨l, rest, rfl, hl⟩ := List.eq_append_cons_of_mem hfeed
    obtain ⟨hafter, hend⟩ := lineAfter_append_feed hl rest
    exact .inr ⟨rest, hend, by rw [hafter]⟩
  · obtain ⟨hafter, hend⟩ := lineAfter_of_not_mem hfeed
    exact .inl ⟨hend, hafter⟩

/-- **The line of an offset is what stands before it and what stands after it.** -/
theorem placeIn_lines_append (before after : List Char) (first : Nat) :
    placeIn first (byteLength before) (lines (before ++ after)) =
      some ⟨first + before.count '\n', lineBefore before ++ (lineAfter after ++ lineFeed after),
        byteLength (lineBefore before)⟩ := by
  induction before using lineInduction generalizing first with
  | last l hl =>
    rw [lineBefore_of_not_mem hl, List.count_eq_zero.mpr hl, Nat.add_zero]
    have hline : '\n' ∉ l ++ lineAfter after := by
      rw [List.mem_append, not_or]
      exact ⟨hl, feed_not_mem_lineAfter after⟩
    rcases lineFeed_cases after with ⟨hend, hafter⟩ | ⟨rest, hend, hafter⟩
    · rw [hend, List.append_nil]
      rw [hafter] at hline ⊢
      refine placeIn_lines_of_not_mem hline first ?_
      rw [byteLength_append]
      exact Nat.le_add_right _ _
    · have hsplit : l ++ after = (l ++ lineAfter after) ++ '\n' :: rest := by
        rw [List.append_assoc, ← hafter]
      rw [hsplit, lines_append hline, placeIn_first, hend, List.append_assoc]
      simp only [byteLength_append, byteLength_cons]
      have := Char.utf8Size_pos '\n'
      omega
  | line l rest hl ih =>
    have hline : (l ++ '\n' :: rest) ++ after = l ++ '\n' :: (rest ++ after) := by simp
    have hbytes : byteLength (l ++ '\n' :: rest) =
        byteLength (l ++ ['\n']) + byteLength rest := by
      rw [← byteLength_append, List.append_assoc, List.singleton_append]
    have hcount : first + (l ++ '\n' :: rest).count '\n' = first + 1 + rest.count '\n' := by
      rw [List.count_append, List.count_cons_self, List.count_eq_zero.mpr hl]
      omega
    rw [hline, lines_append hl, placeIn_next _ (by omega), hbytes, Nat.add_sub_cancel_left, ih,
      lineBefore_append_feed, hcount]

/-- The line around a cut through a text. -/
def lineAround (before after : List Char) : LinePlace where
  number := 1 + before.count '\n'
  text := lineBefore before ++ (lineAfter after ++ lineFeed after)
  column := byteLength (lineBefore before)

theorem lineAt?_append (before after : List Char) :
    lineAt? (before ++ after) (byteLength before) = some (lineAround before after) :=
  placeIn_lines_append before after 1

end Text

/-! ## The quoted line -/

namespace Fault

open Text

/-- What a report shows of a line up to a fault, behind the number of the line. -/
def shownBefore (number : Nat) (before : List Char) : List Char :=
  Nat.toDigits 10 number ++ [' ', '|', ' '] ++ before.dropWhile isMargin

/-- The end of a report: what comes before the quoted line, that line, and what the caret stands
behind. -/
structure Drawing where
  above : List Char
  quoted : List Char
  front : List Char

/-- The characters of a report that ends with the drawing. -/
def Drawing.chars (d : Drawing) : List Char :=
  d.above ++ (d.quoted ++ '\n' :: (d.front ++ ['^', '\n']))

/-- The caret stands alone below the quoted line, in the column in which that line, with the
blanks that it was trimmed of, comes to what stands after the fault. -/
structure Drawing.PointsAt (d : Drawing) (number : Nat) (before after : List Char) : Prop where
  begins : d.above.getLast? = some '\n'
  quoted_oneLine : '\n' ∉ d.quoted
  front_oneLine : '\n' ∉ d.front
  caret : '^' ∉ d.front
  shows : ∃ trimmed, (∀ c ∈ trimmed, isBlank c = true) ∧
    d.quoted ++ trimmed = shownBefore number before ++ after
  column : d.front.length = (shownBefore number before).length

/-- The fault does not stand in the margin of its line. -/
def OutsideMargin (before after : List Char) : Prop :=
  ¬ ((∀ c ∈ before, isMargin c = true) ∧ ∃ c, after.head? = some c ∧ isMargin c = true)

/-- Outside of the margin, the margin ends before the fault. -/
theorem takeWhile_isMargin_append {before after : List Char} (h : OutsideMargin before after) :
    (before ++ after).takeWhile isMargin = before.takeWhile isMargin := by
  induction before with
  | nil =>
    cases after with
    | nil => rfl
    | cons c cs =>
      have hc : ¬ isMargin c = true := fun hc => h ⟨by simp, c, rfl, hc⟩
      rw [List.nil_append, List.takeWhile_cons_of_neg hc, List.takeWhile_nil]
  | cons c cs ih =>
    rw [List.cons_append, List.takeWhile_cons, List.takeWhile_cons]
    by_cases hc : isMargin c = true
    · have hcs : OutsideMargin cs after := by
        rintro ⟨hall, hafter⟩
        exact h ⟨by simpa using ⟨hc, hall⟩, hafter⟩
      rw [ih hcs]
    · rw [if_neg hc, if_neg hc]

/-- What stands left of a quoted line, in the lines around it. -/
def gutter (number : Nat) : List Char :=
  List.replicate ((Nat.toDigits 10 number).length + 1) ' ' ++ ['|']

/-- The end of the report of a fault between two parts of a line. -/
def drawing (above : List Char) (number : Nat) (before after : List Char) : Drawing where
  above := above ++ gutter number ++ ['\n']
  quoted := Nat.toDigits 10 number ++ [' ', '|', ' '] ++
    (before.dropWhile isMargin ++ after).rdropWhile isBlank
  front := gutter number ++ ' ' :: List.replicate (before.dropWhile isMargin).length '-'

/-- Cutting off a margin leaves what stands behind it. -/
theorem drop_margin (before : List Char) :
    before.drop (before.takeWhile isMargin).length = before.dropWhile isMargin := by
  have hsplit : before.takeWhile isMargin ++ before.dropWhile isMargin = before :=
    List.takeWhile_append_dropWhile
  calc before.drop (before.takeWhile isMargin).length
      = (before.takeWhile isMargin ++ before.dropWhile isMargin).drop
          (before.takeWhile isMargin).length := by rw [hsplit]
    _ = before.dropWhile isMargin := List.drop_left

/-- What is left of the length of a line without its margin. -/
theorem length_sub_margin (before : List Char) :
    before.length - (before.takeWhile isMargin).length = (before.dropWhile isMargin).length := by
  rw [← drop_margin, List.length_drop]

variable {number : Nat} {before after feed : List Char}

/-- The caret is as far behind its first column as the fault is behind the margin. -/
theorem caretWidth_append (number : Nat) (before after : List Char) :
    caretWidth ⟨number, before ++ after, byteLength before⟩ =
      (before.dropWhile isMargin).length + 1 := by
  by_cases hall : ∀ c ∈ before, isMargin c = true
  · -- a fault in the margin has its caret in the first column
    have hle : before.length ≤ ((before ++ after).takeWhile isMargin).length := by
      rw [List.takeWhile_append_of_pos hall, List.length_append]
      exact Nat.le_add_right _ _
    simp only [caretWidth, charsBefore?_append, Option.getD_some, Nat.sub_eq_zero_of_le hle,
      List.dropWhile_eq_nil_iff.mpr hall, List.length_nil]
  · have houtside : OutsideMargin before after := fun hmargin => hall hmargin.1
    simp only [caretWidth, charsBefore?_append, Option.getD_some,
      takeWhile_isMargin_append houtside, length_sub_margin]

/-- The line feed of a quoted line is trimmed. -/
theorem trimRight_append_feed (hfeed : feed = [] ∨ feed = ['\n']) (cs : List Char) :
    trimRight (cs ++ feed) = cs.rdropWhile isBlank := by
  rw [trimRight_eq]
  rcases hfeed with rfl | rfl
  · rw [List.append_nil]
  · rw [List.rdropWhile_concat_pos _ _ _ (by decide)]

/-- **An excerpt is the drawing of its line.** -/
theorem excerpt_eq (h : OutsideMargin before (after ++ feed))
    (hfeed : feed = [] ∨ feed = ['\n']) (above : List Char) :
    above ++ excerpt ⟨number, before ++ (after ++ feed), byteLength before⟩ =
      (drawing above number before after).chars := by
  have hmargin := takeWhile_isMargin_append h
  have hle : (before.takeWhile isMargin).length ≤ before.length :=
    (List.takeWhile_prefix _).length_le
  have hquoted :
      trimRight ((before ++ (after ++ feed)).drop (before.takeWhile isMargin).length) =
        (before.dropWhile isMargin ++ after).rdropWhile isBlank := by
    rw [List.drop_append_of_le_length hle, drop_margin, ← List.append_assoc,
      trimRight_append_feed hfeed]
  simp only [excerpt, hmargin, charsBefore?_append, Option.getD_some, hquoted, length_sub_margin,
    drawing, Drawing.chars, gutter, List.append_assoc, List.cons_append, List.nil_append]

/-- Digits and the rest of a gutter are neither line feeds nor carets. -/
theorem not_mem_gutter (number : Nat) {c : Char} (hc : c = '\n' ∨ c = '^') :
    c ∉ Nat.toDigits 10 number ∧ c ∉ gutter number := by
  have hdigits : c ∉ Nat.toDigits 10 number := fun hmem => by
    have hdigit := Nat.isDigit_of_mem_toDigits (by decide) (Nat.le_refl 10) hmem
    rcases hc with rfl | rfl <;> cases hdigit
  refine ⟨hdigits, ?_⟩
  rw [gutter, List.mem_append, List.mem_replicate, List.mem_singleton]
  rcases hc with rfl | rfl <;> simp

/-- **The drawing of a line points at the fault in it.** -/
theorem pointsAt_drawing (hbefore : '\n' ∉ before) (hafter : '\n' ∉ after) (above : List Char) :
    (drawing above number before after).PointsAt number before after where
  begins := List.getLast?_concat
  quoted_oneLine := by
    have hrest : '\n' ∉ (before.dropWhile isMargin ++ after).rdropWhile isBlank := fun hmem => by
      rcases List.mem_append.mp ((List.rdropWhile_prefix _ _).subset hmem) with hmem | hmem
      · exact hbefore (List.dropWhile_suffix _ |>.subset hmem)
      · exact hafter hmem
    have hdigits := (not_mem_gutter number (.inl rfl)).1
    simp [drawing, hrest, hdigits]
  front_oneLine := by
    have hgutter := (not_mem_gutter number (.inl rfl)).2
    simp [drawing, hgutter]
  caret := by
    have hgutter := (not_mem_gutter number (.inr rfl)).2
    simp [drawing, hgutter]
  shows := by
    refine ⟨(before.dropWhile isMargin ++ after).rtakeWhile isBlank,
      fun c hc => List.mem_rtakeWhile_imp hc, ?_⟩
    rw [drawing, shownBefore, List.append_assoc, List.rdropWhile_append_rtakeWhile,
      List.append_assoc, List.append_assoc, List.append_assoc]
  column := by
    simp only [drawing, shownBefore, gutter, List.length_append, List.length_cons,
      List.length_nil, List.length_replicate]
    omega

/-! ## The report -/

theorem head?_lineAfter (after : List Char) :
    (lineAfter after ++ lineFeed after).head? = after.head? := by
  by_cases hfeed : '\n' ∈ after
  · obtain ⟨l, rest, rfl, hl⟩ := List.eq_append_cons_of_mem hfeed
    obtain ⟨hafter, hend⟩ := lineAfter_append_feed hl rest
    rw [hafter, hend]
    cases l <;> rfl
  · obtain ⟨hafter, hend⟩ := lineAfter_of_not_mem hfeed
    rw [hafter, hend, List.append_nil]

variable {fault : Fault} {source : String}

/-- **The report of a fault in a file** quotes the line around the fault, if it can be printed. -/
theorem report?_eq_excerpt (hfile : fault.position.file ≠ "<null>")
    (htext : source.toList = before ++ after)
    (hoffset : fault.position.offset = byteLength before) :
    fault.report? source =
      if ((lineBefore before).dropWhile isMargin).length < fieldLimit then
        some (fault.headline ++ "-> " ++ fault.position.file ++ "\n" ++
          String.ofList (excerpt (lineAround before after)))
      else none := by
  have hattached : fault.position.isDetached = false := by
    rw [Position.isDetached]
    simpa using hfile
  have hplace : lineAt? source.toList fault.position.offset = some (lineAround before after) := by
    rw [htext, hoffset, lineAt?_append]
  have hprintable : fault.isPrintable source =
      decide (((lineBefore before).dropWhile isMargin).length < fieldLimit) := by
    rw [isPrintable, hattached, hplace, Bool.false_or]
    simp only [lineAround, caretWidth_append, Nat.succ_le_iff]
  rw [report?, hprintable, report, hattached, hplace]
  simp only [decide_eq_true_eq, Bool.false_eq_true, if_false]

/-- The lines of a report above its drawing. -/
def located (fault : Fault) : List Char :=
  (fault.headline ++ "-> " ++ fault.position.file ++ "\n").toList

/-- **The report of a fault that is not in the margin of its line.** -/
theorem report?_eq (hfile : fault.position.file ≠ "<null>")
    (htext : source.toList = before ++ after)
    (hoffset : fault.position.offset = byteLength before)
    (hmargin : OutsideMargin (lineBefore before) after) :
    fault.report? source =
      if ((lineBefore before).dropWhile isMargin).length < fieldLimit then
        some (.ofList (drawing fault.located (1 + before.count '\n') (lineBefore before)
          (lineAfter after)).chars)
      else none := by
  have hline : OutsideMargin (lineBefore before) (lineAfter after ++ lineFeed after) := by
    rwa [OutsideMargin, head?_lineAfter]
  have hfeed : lineFeed after = [] ∨ lineFeed after = ['\n'] := by
    rcases lineFeed_cases after with ⟨hend, -⟩ | ⟨-, hend, -⟩
    · exact .inl hend
    · exact .inr hend
  rw [report?_eq_excerpt hfile htext hoffset, ← excerpt_eq hline hfeed, String.ofList_append,
    located, String.ofList_toList, lineAround]

/-- **The caret points at the fault, in every report that can be printed.**

The fault stands between two parts of the source, in a file and not in the margin of its line.  If
the quoted line has fewer characters before the fault than a field is wide, there is a report, and
it ends with a drawing that points at the fault.  If there are more, there is no report. -/
theorem report?_points (hfile : fault.position.file ≠ "<null>")
    (htext : source.toList = before ++ after)
    (hoffset : fault.position.offset = byteLength before)
    (hmargin : OutsideMargin (lineBefore before) after) :
    (((lineBefore before).dropWhile isMargin).length < fieldLimit →
      ∃ (report : String) (d : Drawing), fault.report? source = some report ∧
        report.toList = d.chars ∧
        d.PointsAt (1 + before.count '\n') (lineBefore before) (lineAfter after)) ∧
    (fieldLimit ≤ ((lineBefore before).dropWhile isMargin).length →
      fault.report? source = none) := by
  have hreport := report?_eq hfile htext hoffset hmargin
  refine ⟨fun hwidth => ?_, fun hwidth => ?_⟩
  · rw [if_pos hwidth] at hreport
    refine ⟨_, drawing fault.located (1 + before.count '\n') (lineBefore before)
      (lineAfter after), hreport, String.toList_ofList, ?_⟩
    exact pointsAt_drawing (feed_not_mem_lineBefore before) (feed_not_mem_lineAfter after) _
  · rw [hreport, if_neg (Nat.not_lt.mpr hwidth)]

/-- A line with a margin, blanks at its end and characters of more than one byte. -/
def accentedSource : String := "x = 1\n\tprïnt(é)  \n"

/-- A fault at its second accent. -/
def accentFault : Fault := ⟨.unrecognisedToken "é", ⟨14, "main.py"⟩⟩

theorem report?_points_accented :
    ∃ (report : String) (d : Drawing), accentFault.report? accentedSource = some report ∧
      report.toList = d.chars ∧ d.PointsAt 2 "\tprïnt(".toList "é)  ".toList := by
  have htext : accentedSource.toList = "x = 1\n\tprïnt(".toList ++ "é)  \n".toList := by decide
  have hmargin : OutsideMargin (lineBefore "x = 1\n\tprïnt(".toList) "é)  \n".toList := by
    rintro ⟨-, c, hc, hblank⟩
    cases hc
    cases hblank
  exact (report?_points (by decide) htext (by decide) hmargin).1 (by decide)

example : accentFault.report? accentedSource =
    some "Error: UnrecognisedToken\n-> main.py\n  |\n2 | prïnt(é)\n  | ------^\n" := by
  decide +kernel

/-! ## Where there is no report -/

/-- A line of so many letters. -/
def wideLine (length : Nat) : List Char := List.replicate length 'a'

theorem byteLength_wideLine (length : Nat) : byteLength (wideLine length) = length := by
  induction length with
  | zero => rfl
  | succ length ih =>
    have hletter : 'a'.utf8Size = 1 := rfl
    rw [wideLine, List.replicate_succ, byteLength_cons, ← wideLine, ih, hletter, Nat.add_comm]

/-- Behind a wide line nothing is lost to other lines or to the margin. -/
theorem dropWhile_lineBefore_wideLine {length : Nat} (h : 0 < length) {rest : List Char}
    (hrest : '\n' ∉ rest) :
    (lineBefore (wideLine length ++ rest)).dropWhile isMargin = wideLine length ++ rest := by
  have hline : '\n' ∉ wideLine length ++ rest := by
    rw [List.mem_append, not_or]
    refine ⟨fun hmem => ?_, hrest⟩
    cases List.eq_of_mem_replicate hmem
  obtain ⟨n, rfl⟩ := Nat.exists_eq_add_one.mpr h
  rw [lineBefore_of_not_mem hline, wideLine, List.replicate_succ, List.cons_append,
    List.dropWhile_cons_of_neg (by decide)]

/-- A letter is not in the margin. -/
theorem outsideMargin_letter (before : List Char) : OutsideMargin before ['a'] := by
  rintro ⟨-, c, hc, hblank⟩
  cases hc
  cases hblank

/-- The last character of a wide line has no report. -/
theorem report?_wideLine {length : Nat} (h : fieldLimit ≤ length) (cause : Cause) :
    (⟨cause, ⟨length, "main.py"⟩⟩ : Fault).report? (.ofList (wideLine length ++ ['a'])) =
      none := by
  have hfile : "main.py" ≠ "<null>" := by decide
  have hmargin := outsideMargin_letter (lineBefore (wideLine length))
  have hshown := dropWhile_lineBefore_wideLine (Nat.lt_of_lt_of_le (by decide) h)
    (List.not_mem_nil (a := '\n'))
  rw [List.append_nil] at hshown
  rw [report?_eq hfile String.toList_ofList (byteLength_wideLine length).symm hmargin, hshown,
    wideLine, List.length_replicate, if_neg (Nat.not_lt.mpr h)]

/-- **A fault may have no report**, although it has a file and stands in front of a character
that is not in the margin: in front of the last of 65536 letters there are too many. -/
theorem wide_line_has_no_report :
    let fault : Fault := ⟨.unexpectedIndent, ⟨65535, "main.py"⟩⟩
    fault.position.file ≠ "<null>" ∧ fault.position.offset = byteLength (wideLine 65535) ∧
      OutsideMargin (lineBefore (wideLine 65535)) ['a'] ∧
      fault.report? (.ofList (wideLine 65535 ++ ['a'])) = none :=
  ⟨by decide, (byteLength_wideLine 65535).symm, outsideMargin_letter _,
    report?_wideLine (Nat.le_refl 65535) .unexpectedIndent⟩

end Fault
end SlotTree

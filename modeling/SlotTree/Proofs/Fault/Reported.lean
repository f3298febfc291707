import SlotTree.Proofs.Fault.Caret

/-!
# Faults are reported

Every fault of a script lies in the script, between two of its characters
(`liesIn_of_readSource`).  The text is cut there, the line around the cut is the one to quote, and
nothing is missing for a report but the room in front of the caret (`report?_eq_excerpt`).

That room is not always there.  A fault can stand behind as much of its line as one likes
(`readSource_wideText`), and so there are scripts that are refused without a report.
-/

namespace SlotTree
namespace Reading

open Text (byteLength lineAt? lineAround lineBefore)
open Fault (excerpt fieldLimit isMargin wideLine byteLength_wideLine
  dropWhile_lineBefore_wideLine)

/-- A fault of a script lies in it, between what comes before it and what comes after it, and the
line around it is known.  Its report quotes that line, and there is a report if and only if what
stands before the fault on the line, without the margin, is shorter than a field can be wide. -/
structure Reported (fault : Fault) (source file : String) : Prop where
  liesIn : fault.position.LiesIn file source.toList
  line : ∃ before after, source.toList = before ++ after ∧
    fault.position.offset = byteLength before ∧
    lineAt? source.toList fault.position.offset = some (lineAround before after) ∧
    fault.report? source =
      if ((lineBefore before).dropWhile isMargin).length < fieldLimit then
        some (fault.headline ++ "-> " ++ file ++ "\n" ++
          String.ofList (excerpt (lineAround before after)))
      else none

/-- **Every fault in a script is located, and reported with its line where there is room.** -/
theorem readSource_fault_reported {source file : String} {fault : Fault} (hfile : file ≠ "<null>")
    (h : readSource source file = .error fault) : Reported fault source file := by
  have hlies := liesIn_of_readSource h
  refine ⟨hlies, ?_⟩
  obtain ⟨before, after, htext, hoffset⟩ := Text.exists_append_of_charsBefore? hlies.bounded
  have hattached : fault.position.file ≠ "<null>" := by rwa [hlies.file_eq]
  refine ⟨before, after, htext, hoffset, ?_, ?_⟩
  · rw [htext, hoffset, Text.lineAt?_append]
  · rw [Fault.report?_eq_excerpt hattached htext hoffset, hlies.file_eq]

/-- A keyword of the wrong type behind wide characters, on the second line. -/
def mistypedScript : String := "x: int = 1\nprint(\"é\", sep=ü) # ñ\n"

theorem readSource_fault_reported_mistyped :
    ∃ fault, readSource mistypedScript "main.py" = .error fault ∧
      fault = ⟨.argumentMismatch "sep" "str" "object", ⟨27, "main.py"⟩⟩ ∧
      Reported fault mistypedScript "main.py" := by
  have hfault : (match readSource mistypedScript "main.py" with
      | .ok _ => none
      | .error fault => some fault) =
        some ⟨.argumentMismatch "sep" "str" "object", ⟨27, "main.py"⟩⟩ := by
    decide +kernel
  cases hread : readSource mistypedScript "main.py" with
  | ok b =>
    rw [hread] at hfault
    cases hfault
  | error fault =>
    rw [hread] at hfault
    exact ⟨fault, rfl, Option.some.inj hfault, readSource_fault_reported (by decide) hread⟩

/-! ## Scripts that are refused without a report -/

/-- A long name and, behind a blank, a character that begins no token. -/
def wideText (length : Nat) : List Char := wideLine length ++ [' ', '$']

theorem isWord_wideLine {length : Nat} (h : 0 < length) : Lexeme.IsWord (wideLine length) := by
  obtain ⟨n, rfl⟩ := Nat.exists_eq_add_one.mpr h
  refine ⟨'a', wideLine n, List.replicate_succ, by decide, fun d hd => ?_⟩
  rw [List.eq_of_mem_replicate hd]
  decide

theorem opens_wideText {length : Nat} (h : 0 < length) : Opens (wideText length) := by
  obtain ⟨c, ds, hcs, hc, -⟩ := isWord_wideLine h
  refine ⟨c, ds ++ [' ', '$'], ?_, (Lexeme.of_isNameStart hc).1, ?_⟩
  · rw [wideText, hcs, List.cons_append]
  · rintro rfl
    cases hc

/-- **The scanner stops behind the name and the blank**, however long the name is. -/
theorem run_wideText {length : Nat} (h : 0 < length) (file : String) :
    Scan.run file (.ofText (wideText length)) =
      .error ⟨.unrecognisedToken "$", ⟨length + 1, file⟩⟩ := by
  have hend : Lexeme.Delimited [' ', '$'] := .cons (by decide)
  have hname := Lexeme.next_word (isWord_wideLine h) hend
  have hblank : Lexeme.next [' ', '$'] = .ok ⟨.trivia, [' ']⟩ := by decide
  have hdollar : Lexeme.next ['$'] = .error (.unrecognisedToken "$") := by decide
  rw [Scan.run_of_opens (.ofText (wideText length)) (opens_wideText h)]
  obtain ⟨s, hrun, hrest, hoffset, hstart⟩ :=
    Scan.exists_run_past (s := { Scan.ofText (wideText length) with lineStart := false })
      rfl rfl hname (by simp)
  obtain ⟨s', hrun', hrest', hoffset', hstart'⟩ :=
    Scan.exists_run_past (l := ⟨.trivia, [' ']⟩) hstart hrest (by rw [hrest, hblank]) (by simp)
  have hfault : s'.run file = .error ⟨.unrecognisedToken "$", s'.position file⟩ :=
    Scan.run_of_next_error hstart' (by simp [hrest']) (by rw [hrest', hdollar])
  have hstop : s'.offset = length + 1 := by
    have hone : byteLength [' '] = 1 := rfl
    have hzero : (Scan.ofText (wideText length)).offset = 0 := rfl
    rw [hoffset', hoffset, byteLength_wideLine, hone, hzero, Nat.zero_add]
  rw [hrun, hrun', hfault, Scan.position, hstop]

/-- **A script can be refused behind as much of a line as one likes.** -/
theorem readSource_wideText {length : Nat} (h : 0 < length) (file : String) :
    readSource (.ofList (wideText length)) file =
      .error ⟨.unrecognisedToken "$", ⟨length + 1, file⟩⟩ := by
  rw [readSource, tokenize, String.toList_ofList, run_wideText h file]
  rfl

/-- There is no report behind a name that fills a field. -/
theorem report?_wideText {length : Nat} (h : fieldLimit ≤ length) (cause : Cause) :
    (⟨cause, ⟨length + 1, "main.py"⟩⟩ : Fault).report? (.ofList (wideText length)) = none := by
  have hpos : 0 < length := Nat.lt_of_lt_of_le (by decide) h
  have hfile : "main.py" ≠ "<null>" := by decide
  have htext : (String.ofList (wideText length)).toList = (wideLine length ++ [' ']) ++ ['$'] := by
    rw [String.toList_ofList, wideText, List.append_assoc, List.singleton_append]
  have hoffset : length + 1 = byteLength (wideLine length ++ [' ']) := by
    rw [Text.byteLength_append, byteLength_wideLine]
    rfl
  have hblank : '\n' ∉ [' '] := by decide
  have hshown := dropWhile_lineBefore_wideLine hpos hblank
  have hwidth : ¬ (wideLine length ++ [' ']).length < fieldLimit := by
    rw [List.length_append, wideLine, List.length_replicate, Nat.not_lt]
    exact h.trans (Nat.le_add_right _ _)
  rw [Fault.report?_eq_excerpt hfile htext hoffset, hshown, if_neg hwidth]

/-- **A script may be refused without a report**, although it is small and its file has a name:
before the fault stand 65536 characters of its line. -/
theorem wide_script_has_no_report :
    let source := String.ofList (wideText 65535)
    let fault : Fault := ⟨.unrecognisedToken "$", ⟨65536, "main.py"⟩⟩
    byteLength source.toList < 2 ^ 32 ∧ "main.py" ≠ "<null>" ∧
      readSource source "main.py" = .error fault ∧ fault.report? source = none := by
  refine ⟨?_, by decide, readSource_wideText (by decide) "main.py",
    report?_wideText (Nat.le_refl 65535) _⟩
  rw [String.toList_ofList, wideText, Text.byteLength_append, byteLength_wideLine]
  decide

end Reading
end SlotTree

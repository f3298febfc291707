import Mathlib.Data.List.DropRight
import SlotTree.Proofs.Reading.Located

/-!
# The line of an offset, by its bytes

`lineAt?` finds the line of an offset by going through the lines of a text one after the other,
and it has an ending of its own for a text without lines, for one that ends in a line feed and
for one that does not.  What a line is does not depend on this walk.  It can be read off the
bytes of the text: the line of an offset starts behind the last line feed before the offset
(`lineStart`), it runs through the next line feed or to the end (`throughFeed`), and its number
is one more than the number of line feeds before the offset.

Offsets count bytes, so an offset may lie inside a character.  That causes no trouble, because
the byte of a line feed occurs in the encoding of no other character
(`feed_mem_utf8EncodeChar_iff`).
-/

namespace SlotTree
namespace Text

/-! ## Bytes -/

/-- The bytes of a text in UTF-8. -/
def utf8 (cs : List Char) : List UInt8 := cs.flatMap String.utf8EncodeChar

/-- The byte of a line feed. -/
def feed : UInt8 := 10

@[simp] theorem utf8_append (cs ds : List Char) : utf8 (cs ++ ds) = utf8 cs ++ utf8 ds :=
  List.flatMap_append

@[simp] theorem utf8_feed : utf8 ['\n'] = [feed] := by decide

@[simp] theorem length_utf8 (cs : List Char) : (utf8 cs).length = byteLength cs := by
  induction cs with
  | nil => rfl
  | cons c cs ih =>
    rw [utf8, List.flatMap_cons, List.length_append, String.length_utf8EncodeChar, ← utf8, ih,
      byteLength_cons]

/-- Texts with the same bytes are the same. -/
theorem utf8_injective {cs ds : List Char} (h : utf8 cs = utf8 ds) : cs = ds := by
  apply String.ofList_injective
  rw [← String.toByteArray_inj, String.toByteArray_ofList, String.toByteArray_ofList]
  exact congrArg List.toByteArray h

/-- The bytes of a character that takes more than one lie above those of ASCII. -/
theorem le_of_mem_utf8EncodeChar {c : Char} {b : UInt8} (hc : 127 < c.val.toNat)
    (hb : b ∈ String.utf8EncodeChar c) : 128 ≤ b.toNat := by
  simp only [String.utf8EncodeChar, if_neg (Nat.not_le.mpr hc)] at hb
  split at hb
  · simp only [List.mem_cons, List.not_mem_nil, or_false] at hb
    rcases hb with rfl | rfl <;> rw [UInt8.toNat_ofNat'] <;> omega
  split at hb
  · simp only [List.mem_cons, List.not_mem_nil, or_false] at hb
    rcases hb with rfl | rfl | rfl <;> rw [UInt8.toNat_ofNat'] <;> omega
  · simp only [List.mem_cons, List.not_mem_nil, or_false] at hb
    rcases hb with rfl | rfl | rfl | rfl <;> rw [UInt8.toNat_ofNat'] <;> omega

/-- The byte of a line feed stands for a line feed and is part of no other character. -/
theorem feed_mem_utf8EncodeChar_iff {c : Char} : feed ∈ String.utf8EncodeChar c ↔ c = '\n' := by
  constructor
  · intro h
    rcases Nat.lt_or_ge 127 c.val.toNat with hlong | hshort
    · exact absurd (le_of_mem_utf8EncodeChar hlong h) (by decide)
    · simp only [String.utf8EncodeChar, if_pos hshort, List.mem_singleton] at h
      have hval : c.val.toNat = 10 := by
        have hbyte : 10 = (UInt8.ofNat c.val.toNat).toNat := congrArg UInt8.toNat h
        rw [UInt8.toNat_ofNat'] at hbyte
        omega
      exact Char.ext (UInt32.toNat_inj.mp hval)
  · rintro rfl
    decide

theorem feed_mem_utf8_iff {cs : List Char} : feed ∈ utf8 cs ↔ '\n' ∈ cs := by
  simp [utf8, List.mem_flatMap, feed_mem_utf8EncodeChar_iff]

/-- As many bytes as characters are line feeds. -/
theorem count_feed_utf8 (cs : List Char) : (utf8 cs).count feed = cs.count '\n' := by
  induction cs with
  | nil => rfl
  | cons c cs ih =>
    rw [utf8, List.flatMap_cons, List.count_append, ← utf8, ih]
    by_cases hc : c = '\n'
    · subst hc
      rw [List.count_cons_self, Nat.add_comm]
      rfl
    · rw [List.count_cons_of_ne hc, List.count_eq_zero.mpr (mt feed_mem_utf8EncodeChar_iff.mp hc),
        Nat.zero_add]

/-! ## Lines among bytes -/

/-- The offset behind the last line feed before an offset, or zero if there is none. -/
def lineStart (bytes : List UInt8) (offset : Nat) : Nat :=
  ((bytes.take offset).rdropWhile (· != feed)).length

/-- The bytes through the first line feed, or all of them if there is none. -/
def throughFeed (bytes : List UInt8) : List UInt8 :=
  bytes.takeWhile (· != feed) ++ (bytes.dropWhile (· != feed)).take 1

theorem forall_ne_feed {bytes : List UInt8} (h : feed ∉ bytes) :
    ∀ b ∈ bytes, (b != feed) = true := by
  intro b hb
  rw [bne_iff_ne]
  rintro rfl
  exact h hb

/-- Without a line feed there is nothing to stop at. -/
theorem throughFeed_of_not_mem {bytes : List UInt8} (h : feed ∉ bytes) :
    throughFeed bytes = bytes := by
  have hall := forall_ne_feed h
  have hdrop : bytes.dropWhile (· != feed) = [] := List.dropWhile_eq_nil_iff.mpr hall
  rw [throughFeed, List.takeWhile_eq_self_iff.mpr hall, hdrop, List.take_nil, List.append_nil]

theorem throughFeed_append {bytes : List UInt8} (h : feed ∉ bytes) (more : List UInt8) :
    throughFeed (bytes ++ feed :: more) = bytes ++ [feed] := by
  have hall := forall_ne_feed h
  rw [throughFeed, List.takeWhile_append_of_pos hall, List.dropWhile_append_of_pos hall]
  simp

/-- The line of an offset starts where the bytes without a line feed in front of it start. -/
theorem lineStart_append {before line : List UInt8} {column : Nat}
    (hbefore : before = [] ∨ before.getLast? = some feed) (hline : feed ∉ line.take column) :
    lineStart (before ++ line) (before.length + column) = before.length := by
  have hskip : (before ++ line.take column).rdropWhile (· != feed) =
      before.rdropWhile (· != feed) := by
    have hall : ∀ b ∈ (line.take column).reverse, (b != feed) = true := fun b hb =>
      forall_ne_feed hline b (List.mem_reverse.mp hb)
    rw [List.rdropWhile, List.reverse_append, List.dropWhile_append_of_pos hall]
    rfl
  rw [lineStart, List.take_length_add_append, hskip]
  rcases hbefore with rfl | hlast
  · rfl
  · obtain ⟨init, rfl⟩ := List.getLast?_eq_some_iff.mp hlast
    rw [List.rdropWhile_concat_neg _ _ _ (by simp)]

/-! ## What the walk through the lines finds -/

/-- The column of a place lies in its line, or at the end of a line that no line feed ends. -/
theorem column_of_placeIn {first offset : Nat} {ls : List (List Char)} {place : LinePlace}
    (h : placeIn first offset ls = some place) :
    place.column < byteLength place.text ∨
      place.column = byteLength place.text ∧ place.text.getLast? ≠ some '\n' := by
  induction ls generalizing first offset with
  | nil =>
    rw [placeIn] at h
    split at h
    · obtain rfl := Option.some.inj h
      exact Or.inr ⟨rfl, by simp⟩
    · cases h
  | cons l ls ih =>
    rw [placeIn] at h
    split at h
    · next hlt =>
      obtain rfl := Option.some.inj h
      exact Or.inl hlt
    split at h
    · next hend =>
      obtain rfl := Option.some.inj h
      simp only [Bool.and_eq_true, beq_iff_eq, bne_iff_ne] at hend
      exact Or.inr ⟨hend.1.2, hend.2⟩
    · exact ih h

/-- A place is found only for an offset that is not past the lines. -/
theorem offset_le_of_placeIn {first offset : Nat} {ls : List (List Char)} {place : LinePlace}
    (h : placeIn first offset ls = some place) : offset ≤ byteLength ls.flatten := by
  induction ls generalizing first offset with
  | nil =>
    rw [placeIn] at h
    split at h
    · next hzero => simp_all
    · cases h
  | cons l ls ih =>
    rw [List.flatten_cons, byteLength_append]
    rw [placeIn] at h
    split at h
    · omega
    split at h
    · next hend =>
      simp only [Bool.and_eq_true, beq_iff_eq] at hend
      omega
    · have hrest := ih h
      omega

section Shows

variable {place : LinePlace} {first offset : Nat} {text before after : List Char}

/-- A line ends in its only line feed, or it has none and nothing follows it. -/
theorem LinePlace.Shows.text_cases (h : place.Shows first text offset before after) :
    (∃ line, place.text = line ++ ['\n'] ∧ '\n' ∉ line) ∨ '\n' ∉ place.text ∧ after = [] := by
  rcases List.eq_nil_or_concat place.text with hnil | ⟨line, c, hline⟩
  · rcases h.ends with hafter | hlast
    · exact Or.inr ⟨by simp [hnil], hafter⟩
    · simp [hnil] at hlast
  · rw [List.concat_eq_append] at hline
    have hone : '\n' ∉ line := by
      have hdropLast := h.oneLine
      rwa [hline, List.dropLast_concat] at hdropLast
    by_cases hc : c = '\n'
    · exact Or.inl ⟨line, by rw [hline, hc], hone⟩
    · refine Or.inr ⟨?_, ?_⟩
      · rw [hline]
        simp [hone, Ne.symm hc]
      · rcases h.ends with hafter | hlast
        · exact hafter
        · rw [hline, List.getLast?_concat] at hlast
          exact absurd (Option.some.inj hlast) hc

/-- No line feed stands between the start of the line and the offset. -/
theorem LinePlace.Shows.feed_not_mem_take (h : place.Shows first text offset before after)
    (hcolumn : place.column < byteLength place.text ∨
      place.column = byteLength place.text ∧ place.text.getLast? ≠ some '\n') :
    feed ∉ (utf8 place.text).take place.column := by
  rcases h.text_cases with ⟨line, htext, hline⟩ | ⟨hline, -⟩
  · -- the column stops short of the line feed at the end
    have hle : place.column ≤ (utf8 line).length := by
      rcases hcolumn with hlt | ⟨-, hlast⟩
      · rw [htext, byteLength_append] at hlt
        have hone : byteLength ['\n'] = 1 := rfl
        rw [length_utf8]
        omega
      · simp [htext] at hlast
    rw [htext, utf8_append, List.take_append_of_le_length hle]
    exact fun hmem => hline (feed_mem_utf8_iff.mp (List.mem_of_mem_take hmem))
  · exact fun hmem => hline (feed_mem_utf8_iff.mp (List.mem_of_mem_take hmem))

/-- The bytes before a line end in a line feed, if there are any. -/
theorem LinePlace.Shows.begins_utf8 (h : place.Shows first text offset before after) :
    utf8 before = [] ∨ (utf8 before).getLast? = some feed := by
  rcases h.begins with rfl | hlast
  · exact Or.inl rfl
  · obtain ⟨init, rfl⟩ := List.getLast?_eq_some_iff.mp hlast
    simp

/-- The bytes of a line are those through the first line feed from its start on. -/
theorem LinePlace.Shows.throughFeed_eq (h : place.Shows first text offset before after) :
    throughFeed (utf8 place.text ++ utf8 after) = utf8 place.text := by
  rcases h.text_cases with ⟨line, htext, hline⟩ | ⟨hline, rfl⟩
  · rw [htext, utf8_append, utf8_feed, List.append_assoc, List.singleton_append]
    exact throughFeed_append (mt feed_mem_utf8_iff.mp hline) _
  · have hnil : utf8 [] = [] := rfl
    rw [hnil, List.append_nil]
    exact throughFeed_of_not_mem (mt feed_mem_utf8_iff.mp hline)

end Shows

/-- What is found at an offset that is not past the text, by the bytes of the text. -/
theorem exists_lineAt? {text : List Char} {offset : Nat} (h : offset ≤ byteLength text) :
    ∃ place, lineAt? text offset = some place ∧
      place.number = 1 + ((utf8 text).take offset).count feed ∧
      place.column = offset - lineStart (utf8 text) offset ∧
      utf8 place.text = throughFeed ((utf8 text).drop (lineStart (utf8 text) offset)) := by
  obtain ⟨place, before, after, hplace, hshows⟩ := exists_placeIn_lines text 1 h
  have hnone := hshows.feed_not_mem_take (column_of_placeIn hplace)
  have hbytes : utf8 text = utf8 before ++ (utf8 place.text ++ utf8 after) := by
    rw [hshows.text_eq, utf8_append, utf8_append]
  have hoffset : offset = (utf8 before).length + place.column := by
    rw [length_utf8, hshows.offset_eq]
  have hle : place.column ≤ (utf8 place.text).length := by
    rw [length_utf8]
    rcases column_of_placeIn hplace with hlt | ⟨heq, -⟩ <;> omega
  have htake : (utf8 place.text ++ utf8 after).take place.column =
      (utf8 place.text).take place.column := List.take_append_of_le_length hle
  have hstart : lineStart (utf8 text) offset = (utf8 before).length := by
    rw [hbytes, hoffset]
    exact lineStart_append hshows.begins_utf8 (by rwa [htake])
  refine ⟨place, hplace, ?_, ?_, ?_⟩
  · rw [hshows.number_eq, hbytes, hoffset, List.take_length_add_append, htake, List.count_append,
      List.count_eq_zero.mpr hnone, count_feed_utf8, Nat.add_zero]
  · rw [hstart, hoffset, Nat.add_sub_cancel_left]
  · rw [hstart, hbytes, List.drop_left, hshows.throughFeed_eq]

/-- **The line of an offset is what the bytes say.**  An offset past the text has no line.  For
every other one, the number of the line is one more than the number of line feeds before the
offset, the line starts behind the last of them, its column is the distance from there, and its
text runs through the next line feed or to the end. -/
theorem lineAt?_by_bytes (text : List Char) (offset : Nat) :
    (lineAt? text offset = none ↔ (utf8 text).length < offset) ∧
      ∀ place, lineAt? text offset = some place ↔
        offset ≤ (utf8 text).length ∧
          place.number = 1 + ((utf8 text).take offset).count feed ∧
          place.column = offset - lineStart (utf8 text) offset ∧
          utf8 place.text = throughFeed ((utf8 text).drop (lineStart (utf8 text) offset)) := by
  rw [length_utf8]
  have hpast : ∀ place, lineAt? text offset = some place → offset ≤ byteLength text := by
    intro place hplace
    have hle := offset_le_of_placeIn hplace
    rwa [flatten_lines] at hle
  refine ⟨⟨fun hnone => ?_, fun hlt => ?_⟩, fun place => ⟨fun hplace => ?_, ?_⟩⟩
  · by_contra hle
    obtain ⟨place, hplace, -⟩ := exists_lineAt? (Nat.not_lt.mp hle)
    rw [hnone] at hplace
    cases hplace
  · rw [Option.eq_none_iff_forall_ne_some]
    exact fun place hplace => absurd (hpast place hplace) (Nat.not_le.mpr hlt)
  · obtain ⟨place', hplace', hfacts⟩ := exists_lineAt? (hpast place hplace)
    obtain rfl := Option.some.inj (hplace'.symm.trans hplace)
    exact ⟨hpast place' hplace, hfacts⟩
  · rintro ⟨hle, hnumber, hcolumn, htext⟩
    obtain ⟨⟨number, line, column⟩, hplace', hnumber', hcolumn', htext'⟩ := exists_lineAt? hle
    obtain ⟨n, l, c⟩ := place
    have hsame : l = line := utf8_injective (htext.trans htext'.symm)
    rw [hplace', hsame]
    exact congrArg some (by simp_all)

/-- The places of a line feed, of an offset inside a character, and of the two kinds of ends. -/
example :
    lineAt? "a\né\n".toList 1 = some ⟨1, "a\n".toList, 1⟩ ∧
      lineAt? "a\né\n".toList 3 = some ⟨2, "é\n".toList, 1⟩ ∧
      lineAt? "a\né\n".toList 5 = some ⟨3, [], 0⟩ ∧ lineAt? "a".toList 1 = some ⟨1, ['a'], 1⟩ := by
  decide

end Text
end SlotTree

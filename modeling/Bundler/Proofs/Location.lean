import Bundler.Error
import Bundler.Proofs.Text.Lines
import Mathlib.Data.List.DropRight
import Mathlib.Data.List.Forall2

/-!
# The lines that show a location

An excerpt is one text, in which each line stands behind its number and a colon. To show it, the
text is taken apart into lines again, and the number is read back. A line keeps its number on the
way, and its text as far as the carriage returns at its end. So a location shows the lines around
it, each once, and marks the line it tells, if that is a line of the source. The end of a source
whose last line is whole lies behind all of its lines: there no line is marked.

* `Location.readRow_row`: a row is read back, whatever its text is;
* `Location.exists_showRows`: an excerpt is shown with its lines and their numbers;
* `Text.mem_excerpt_iff`: which lines stand in an excerpt;
* `Error.exists_detailed`: what an error shows about an offset, and when it marks a line.
-/

namespace Bundler

namespace Text

/-- Excerpts number their lines from one on, without a gap. -/
theorem numbered_map_fst (text : List Char) :
    (numbered text).map Prod.fst = List.range' 1 (lines text).length := by
  refine List.ext_getElem ?_ fun i _ _ => ?_
  · rw [List.length_map, numbered, List.length_mapIdx, List.length_range']
  · simp only [numbered, List.getElem_map, List.getElem_mapIdx, List.getElem_range', Nat.one_mul,
      Nat.add_comm]

theorem mem_of_mem_numbered {text line : List Char} {n : Nat} (h : (n, line) ∈ numbered text) :
    line ∈ lines text := by
  obtain ⟨i, hi, heq⟩ := List.mem_mapIdx.1 h
  exact (Prod.mk.inj heq).2 ▸ List.getElem_mem hi

/-- The lines of an excerpt stand in order, each once. -/
theorem excerpt_sorted (text : List Char) (n : Nat) :
    ((excerpt text n).map Prod.fst).Pairwise (· < ·) := by
  refine List.Pairwise.sublist (List.Sublist.map _ List.filter_sublist) ?_
  rw [numbered_map_fst]
  exact List.pairwise_lt_range' 1 Nat.one_pos

/-- An excerpt has the lines that are at most two away, as far as the text has them. -/
theorem mem_excerpt_iff {text : List Char} {n k : Nat} :
    k ∈ (excerpt text n).map Prod.fst ↔
      k ∈ List.range' 1 (lines text).length ∧ n ≤ k + 2 ∧ k ≤ n + 2 := by
  rw [← numbered_map_fst]
  simp only [excerpt, List.mem_map, List.mem_filter, decide_eq_true_eq]
  constructor
  · rintro ⟨row, ⟨hrow, hnear⟩, rfl⟩
    exact ⟨⟨row, hrow, rfl⟩, hnear⟩
  · rintro ⟨⟨row, hrow, rfl⟩, hnear⟩
    exact ⟨row, ⟨hrow, hnear⟩, rfl⟩

theorem byteLength_eq_zero_iff {text : List Char} : byteLength text = 0 ↔ text = [] := by
  refine ⟨fun h => ?_, fun h => h ▸ rfl⟩
  by_contra hne
  exact absurd h (Nat.ne_of_gt (byteLength_pos hne))

/-- The line of a place in a text is one of its lines, unless the text is at its end there and has
    only whole lines. -/
theorem line_le_length_iff (read rest : List Char) :
    (Position.after read).line ≤ (lines (read ++ rest)).length ↔
      ¬(rest = [] ∧ IsWhole (read ++ rest)) := by
  rw [Position.line_after, length_lines, List.count_append]
  by_cases hwhole : IsWhole (read ++ rest)
  · rw [if_pos hwhole]
    by_cases hrest : rest = []
    · subst hrest
      simp only [hwhole, List.count_nil, and_self, not_true, iff_false]
      omega
    · -- What is left ends in a line feed.
      have hlast := hwhole (rest.getLast hrest)
        (by rw [List.getLast?_append_of_ne_nil _ hrest, List.getLast?_eq_some_getLast hrest]; rfl)
      have hcount : 0 < rest.count '\n' := List.count_pos_iff.2 (hlast ▸ List.getLast_mem hrest)
      simp only [hrest, false_and, not_false_iff, iff_true]
      omega
  · rw [if_neg hwhole]
    simp only [hwhole, and_false, not_false_iff, iff_true]
    omega

end Text

namespace Location

/-! ### Rows -/

theorem isDigit_of_mem_repr {n : Nat} {c : Char} (h : c ∈ (Nat.repr n).toList) :
    c.isDigit = true := by
  rw [Nat.toList_repr] at h
  exact Nat.isDigit_of_mem_toDigits (by decide) (by decide) h

/-- The digits of a number write it. -/
theorem lineNumber?_repr {n : Nat} (h : n ≤ maxLine) :
    lineNumber? (Nat.repr n).toList = some n := by
  have hne : (Nat.repr n).toList ≠ [] := by
    rw [Nat.toList_repr]
    exact Nat.toDigits_ne_nil
  have hplus : ∀ rest, (Nat.repr n).toList ≠ '+' :: rest := fun rest heq => by
    have hdigit := isDigit_of_mem_repr (n := n) (heq ▸ List.mem_cons_self)
    exact absurd hdigit (by decide)
  have hall : (Nat.repr n).toList.all Char.isDigit = true :=
    List.all_eq_true.2 fun c hc => isDigit_of_mem_repr hc
  have hvalue : (Nat.repr n).toList.foldl (fun n c => 10 * n + (c.toNat - 48)) 0 = n := by
    rw [Nat.toList_repr]
    exact Nat.ofDigitChars_eq_foldl.symm.trans Nat.ofDigitChars_ten_toDigits
  unfold lineNumber?
  split
  · next rest heq => exact absurd heq (hplus rest)
  · dsimp only
    rw [hvalue, hall, if_pos h, List.isEmpty_eq_false_iff.2 hne]
    rfl

/-- A row is read back: the first colon is the one behind its number. -/
theorem readRow_row {numbered : Nat × List Char} (h : numbered.1 ≤ maxLine) :
    readRow (row numbered) = numbered := by
  have hcolon : ∀ c ∈ (Nat.repr numbered.1).toList, (c != ':') = true := fun c hc => by
    rw [bne_iff_ne]
    rintro rfl
    exact absurd (isDigit_of_mem_repr hc) (by decide)
  rw [readRow, row, List.dropWhile_append_of_pos hcolon, List.takeWhile_append_of_pos hcolon,
    List.dropWhile_cons_of_neg (by decide), List.takeWhile_cons_of_neg (by decide), List.append_nil]
  simp only [lineNumber?_repr h]

theorem not_mem_row {numbered : Nat × List Char} (h : '\n' ∉ numbered.2) :
    '\n' ∉ row numbered := by
  rw [row, List.mem_append, List.mem_cons]
  rintro (hdigit | heq | htext)
  · exact absurd (isDigit_of_mem_repr hdigit) (by decide)
  · exact absurd heq (by decide)
  · exact h htext

theorem row_ne_nil (numbered : Nat × List Char) : row numbered ≠ [] :=
  List.append_ne_nil_of_right_ne_nil _ (List.cons_ne_nil _ _)

/-- Two rows have one number, and one text up to the carriage returns at its end. -/
def Alike (one other : Nat × List Char) : Prop :=
  one.1 = other.1 ∧ one.2.rdropWhile (· == '\r') = other.2.rdropWhile (· == '\r')

theorem Alike.refl (numbered : Nat × List Char) : Alike numbered numbered :=
  ⟨rfl, rfl⟩

theorem map_fst_of_alike {shown numbered : List (Nat × List Char)}
    (h : List.Forall₂ Alike shown numbered) : shown.map Prod.fst = numbered.map Prod.fst := by
  rw [← List.forall₂_eq_eq_eq, List.forall₂_map_left_iff, List.forall₂_map_right_iff]
  exact h.imp fun _ _ halike => halike.1

/-- A carriage return at the end of a row is one at the end of its text. -/
theorem exists_alike_of_row {numbered : Nat × List Char} {shown : List Char}
    (h : row numbered = shown ++ ['\r']) : ∃ other, shown = row other ∧ Alike other numbered := by
  obtain ⟨n, text⟩ := numbered
  cases text using List.reverseRecOn with
  | nil =>
    obtain ⟨-, heq⟩ := List.append_inj' h rfl
    exact absurd (List.singleton_inj.1 heq) (by decide)
  | append_singleton text c =>
    rw [row, ← List.cons_append, ← List.append_assoc] at h
    obtain ⟨hrow, heq⟩ := List.append_inj' h rfl
    obtain rfl := List.singleton_inj.1 heq
    exact ⟨(n, text), hrow.symm, rfl, (List.rdropWhile_concat_pos _ _ _ rfl).symm⟩

/-- The lines of rows are these rows, up to carriage returns. -/
theorem exists_lines_rows {numbered : List (Nat × List Char)} (h : ∀ one ∈ numbered, '\n' ∉ one.2) :
    ∃ shown, Text.lines (rows numbered) = shown.map row ∧ List.Forall₂ Alike shown numbered := by
  induction numbered with
  | nil => exact ⟨[], rfl, .nil⟩
  | cons first more ih =>
    obtain ⟨hfirst, hmore⟩ := List.forall_mem_cons.1 h
    cases more with
    | nil =>
      refine ⟨[first], ?_, .cons (.refl first) .nil⟩
      rw [rows, List.map_cons, List.map_nil, List.intercalate_singleton]
      exact Text.lines_eq_singleton (not_mem_row hfirst) (row_ne_nil first)
    | cons second more =>
      obtain ⟨shown, hshown, halike⟩ := ih hmore
      obtain ⟨line, hline, hend⟩ := Text.exists_lines_feed (not_mem_row hfirst)
        (rows (second :: more))
      have hrows : rows (first :: second :: more) =
          row first ++ '\n' :: rows (second :: more) := by
        simp only [rows, List.map_cons, List.intercalate_cons_cons, List.append_assoc,
          List.singleton_append]
      rw [hrows, hline, hshown]
      rcases hend with rfl | hreturn
      · exact ⟨first :: shown, rfl, .cons (.refl first) halike⟩
      · obtain ⟨other, rfl, hother⟩ := exists_alike_of_row hreturn
        exact ⟨other :: shown, rfl, .cons hother halike⟩

/-- An excerpt is shown with its lines and their numbers. -/
theorem exists_showRows {numbered : List (Nat × List Char)} (h : ∀ one ∈ numbered, '\n' ∉ one.2)
    (hmax : ∀ one ∈ numbered, one.1 ≤ maxLine) (marked : Option Nat) :
    ∃ shown, showRows (rows numbered) marked = shown.flatMap (showRow marked) ∧
      List.Forall₂ Alike shown numbered := by
  obtain ⟨shown, hshown, halike⟩ := exists_lines_rows h
  refine ⟨shown, ?_, halike⟩
  rw [showRows, hshown, List.flatMap_map]
  refine List.flatMap_congr fun one hone => ?_
  have hnumber : one.1 ∈ numbered.map Prod.fst :=
    map_fst_of_alike halike ▸ List.mem_map_of_mem hone
  obtain ⟨other, hother, heq⟩ := List.mem_map.1 hnumber
  rw [readRow_row (heq ▸ hmax other hother)]

theorem at?_append (file : String) (read rest : List Char) :
    at? file (read ++ rest) (Text.byteLength read) =
      some
        { file := some file
          position := some (Position.after read)
          excerpt := some
            (String.ofList (rows (Text.excerpt (read ++ rest) (Position.after read).line))) } := by
  rw [at?, Text.before?_append]
  rfl

theorem describe_full (file : String) (position : Position) (excerpt : List Char) :
    describe ⟨some file, some position, some (String.ofList excerpt)⟩ =
      "\n📁 File: " ++ file ++
        ("\n📍 Location: line " ++ Nat.repr position.line ++ ", column " ++
          Nat.repr position.column) ++
        ("\n📝 Code:\n" ++ String.ofList (showRows excerpt (some position.line))) := by
  simp only [describe, String.toList_ofList, Option.map_some]

end Location

theorem Error.detailed_transform (module : String) (fault : ModuleFault) (location : Location) :
    (Error.transform module fault (some location)).detailed =
      "❌ Transform Error: " ++ fault.message ++ "\n📦 Module: " ++ module ++ location.describe :=
  rfl

/-- An error about an offset shows the lines that are at most two away from the line of the offset,
    as far as the source has them, in order and each once, behind their numbers and with their texts
    up to the carriage returns at their ends. The line of the offset is one of them, and so the one
    that is marked, unless the offset is the end of a source that has only whole lines. -/
theorem Error.exists_detailed (module file : String) (fault : ModuleFault) {source : List Char}
    {offset : Nat} (hmark : Text.Mark source offset)
    (hsize : (Text.lines source).length ≤ Location.maxLine) :
    ∃ location position shown, Location.at? file source offset = some location ∧
      location.position = some position ∧
      (Error.transform module fault (some location)).detailed =
        "❌ Transform Error: " ++ fault.message ++ "\n📦 Module: " ++ module ++
          ("\n📁 File: " ++ file ++
            ("\n📍 Location: line " ++ Nat.repr position.line ++ ", column " ++
              Nat.repr position.column) ++
            ("\n📝 Code:\n" ++
              String.ofList (shown.flatMap (Location.showRow (some position.line))))) ∧
      List.Forall₂ Location.Alike shown (Text.excerpt source position.line) ∧
      (shown.map Prod.fst).Pairwise (· < ·) ∧
      (∀ k, k ∈ shown.map Prod.fst ↔
        k ∈ List.range' 1 (Text.lines source).length ∧ position.line ≤ k + 2 ∧
          k ≤ position.line + 2) ∧
      (position.line ∈ shown.map Prod.fst ↔
        ¬(offset = Text.byteLength source ∧ Text.IsWhole source)) := by
  obtain ⟨read, rest, rfl, rfl⟩ := Text.mark_iff.1 hmark
  -- The rows can be told apart again: none has a line feed in it, and no number is too long.
  have hexcerpt : ∀ one ∈ Text.excerpt (read ++ rest) (Position.after read).line,
      '\n' ∉ one.2 ∧ one.1 ≤ Location.maxLine := by
    intro one hone
    refine ⟨Text.not_mem_of_mem_lines (Text.mem_of_mem_numbered (List.mem_filter.1 hone).1), ?_⟩
    have hrange := (Text.mem_excerpt_iff.1 (List.mem_map_of_mem hone)).1
    rw [List.mem_range'_1] at hrange
    omega
  obtain ⟨shown, hshown, halike⟩ := Location.exists_showRows (fun one hone => (hexcerpt one hone).1)
    (fun one hone => (hexcerpt one hone).2) (some (Position.after read).line)
  have hnumbers := Location.map_fst_of_alike halike
  have hend : Text.byteLength read = Text.byteLength (read ++ rest) ↔ rest = [] := by
    rw [Text.byteLength_append, Nat.left_eq_add, Text.byteLength_eq_zero_iff]
  refine ⟨_, Position.after read, shown, Location.at?_append file read rest, rfl, ?_, halike, ?_,
    fun k => ?_, ?_⟩
  · rw [detailed_transform, Location.describe_full, hshown]
  · rw [hnumbers]
    exact Text.excerpt_sorted _ _
  · rw [hnumbers, Text.mem_excerpt_iff]
  · rw [hnumbers, Text.mem_excerpt_iff, hend, ← Text.line_le_length_iff, List.mem_range'_1,
      Position.line_after]
    omega

/-- In the middle of a source that has only whole lines its line is marked. -/
theorem Error.exists_detailed_marked :
    Text.Mark "let x = (\n".toList 9 ∧
      (Text.lines "let x = (\n".toList).length ≤ Location.maxLine ∧
      ∃ location position, ∃ shown : List (Nat × List Char),
        Location.at? "a.js" "let x = (\n".toList 9 = some location ∧
        location.position = some position ∧ position.line ∈ shown.map Prod.fst ∧
        (Error.transform "a.js" (.malformed "no value") (some location)).detailed =
          "❌ Transform Error: " ++ (ModuleFault.malformed "no value").message ++
            "\n📦 Module: " ++ "a.js" ++
            ("\n📁 File: " ++ "a.js" ++
              ("\n📍 Location: line " ++ Nat.repr position.line ++ ", column " ++
                Nat.repr position.column) ++
              ("\n📝 Code:\n" ++
                String.ofList (shown.flatMap (Location.showRow (some position.line))))) := by
  have hmark : Text.Mark "let x = (\n".toList 9 :=
    Text.mark_iff.2 ⟨"let x = (".toList, ['\n'], rfl, rfl⟩
  have hsize : (Text.lines "let x = (\n".toList).length ≤ Location.maxLine := by decide
  obtain ⟨location, position, shown, hlocation, hposition, hdetailed, -, -, -, hmarked⟩ :=
    Error.exists_detailed "a.js" "a.js" (.malformed "no value") hmark hsize
  have hwithin : ¬(9 = Text.byteLength "let x = (\n".toList ∧ Text.IsWhole "let x = (\n".toList) := by
    rintro ⟨hend, -⟩
    exact absurd hend (by decide)
  exact ⟨hmark, hsize, location, position, shown, hlocation, hposition, hmarked.2 hwithin, hdetailed⟩

/-- At the end of such a source no line is marked. -/
example : (Location.at? "a.js" "let x = (\n".toList 10).map Location.describe =
    some "\n📁 File: a.js\n📍 Location: line 2, column 1\n📝 Code:\n    1 │ let x = (\n" := by
  decide +kernel

end Bundler

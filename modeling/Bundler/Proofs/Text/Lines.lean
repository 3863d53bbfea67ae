import Bundler.Text.Basic
import Bundler.Proofs.Text.Position

/-!
# Lines of a text

A line feed ends a line and takes one carriage return before it along. So the lines of a text have
no line feed in them, and there are as many as line feeds, and one more where the text goes on
behind the last one.

* `Text.exists_lines_feed`: the line that a line feed ends;
* `Text.not_mem_of_mem_lines`: lines are free of line feeds;
* `Text.length_lines`: the number of lines.
-/

namespace Bundler.Text

/-- A character that ends no line is put before the first line. -/
theorem lines_cons {c : Char} {rest line : List Char} {more : List (List Char)} (hc : c ≠ '\n')
    (hreturn : c = '\r' → rest.head? ≠ some '\n') (h : lines rest = line :: more) :
    lines (c :: rest) = (c :: line) :: more := by
  rw [lines, h]
  · exact hc
  · rintro more rfl rfl
    exact hreturn rfl rfl

theorem lines_singleton {c : Char} (hc : c ≠ '\n') : lines [c] = [[c]] := by
  rw [lines, lines]
  · exact hc
  · rintro more - heq
    cases heq

/-- A line feed ends a line, and a carriage return before it goes with it. -/
theorem exists_lines_feed {line : List Char} (h : '\n' ∉ line) (rest : List Char) :
    ∃ shown, lines (line ++ '\n' :: rest) = shown :: lines rest ∧
      (line = shown ∨ line = shown ++ ['\r']) := by
  induction line with
  | nil => exact ⟨[], by rw [List.nil_append, lines], .inl rfl⟩
  | cons c line ih =>
    obtain ⟨hc, hline⟩ := not_or.1 (mt List.mem_cons.2 h)
    by_cases hreturn : c = '\r' ∧ line = []
    · obtain ⟨rfl, rfl⟩ := hreturn
      exact ⟨[], by rw [List.singleton_append, lines], .inr rfl⟩
    · obtain ⟨shown, hshown, hsame⟩ := ih hline
      refine ⟨c :: shown, ?_, hsame.imp (congrArg (c :: ·)) (congrArg (c :: ·))⟩
      rw [List.cons_append]
      refine lines_cons (Ne.symm hc) (fun heq => ?_) hshown
      cases line with
      | nil => exact absurd ⟨heq, rfl⟩ hreturn
      | cons d line =>
        intro hhead
        obtain rfl := Option.some.inj hhead
        exact hline (.head _)

/-- A text without a line feed is one line. -/
theorem lines_eq_singleton {line : List Char} (h : '\n' ∉ line) (hne : line ≠ []) :
    lines line = [line] := by
  induction line with
  | nil => exact absurd rfl hne
  | cons c line ih =>
    obtain ⟨hc, hline⟩ := not_or.1 (mt List.mem_cons.2 h)
    cases line with
    | nil => exact lines_singleton (Ne.symm hc)
    | cons d line =>
      exact lines_cons (Ne.symm hc) (fun _ hhead => hline (List.mem_of_mem_head? hhead))
        (ih hline (List.cons_ne_nil d line))

/-- Lines are free of line feeds. -/
theorem not_mem_of_mem_lines {text line : List Char} (h : line ∈ lines text) : '\n' ∉ line := by
  fun_induction lines text generalizing line with
  | case1 => cases h
  | case2 rest ih =>
    rcases List.mem_cons.1 h with rfl | h
    · exact List.not_mem_nil
    · exact ih h
  | case3 rest ih =>
    rcases List.mem_cons.1 h with rfl | h
    · exact List.not_mem_nil
    · exact ih h
  | case4 c rest hc _ hlines _ =>
    rw [List.mem_singleton.1 h, List.mem_singleton]
    exact fun heq => hc heq.symm
  | case5 c rest hc _ first more hlines ih =>
    rw [hlines] at ih
    rcases List.mem_cons.1 h with rfl | h
    · exact List.not_mem_cons_of_ne_of_not_mem (fun heq => hc heq.symm) (ih (.head _))
    · exact ih (.tail _ h)

theorem isWhole_cons {c : Char} {rest : List Char} (h : rest ≠ []) :
    IsWhole (c :: rest) ↔ IsWhole rest := by
  obtain ⟨d, more, rfl⟩ := List.exists_cons_of_ne_nil h
  rw [IsWhole, IsWhole, List.getLast?_cons_cons]

theorem lines_ne_nil {text : List Char} (h : text ≠ []) : lines text ≠ [] := by
  fun_cases lines text with
  | case1 => exact absurd rfl h
  | case2 => exact List.cons_ne_nil _ _
  | case3 => exact List.cons_ne_nil _ _
  | case4 c rest hc _ hlines => simp
  | case5 => exact List.cons_ne_nil _ _

/-- A text has a line for each line feed, and one for what stands behind the last of them. -/
theorem length_lines (text : List Char) :
    (lines text).length = text.count '\n' + if IsWhole text then 0 else 1 := by
  -- The induction is on the lines. A line feed at the end adds no line behind it.
  fun_induction lines text with
  | case1 => rw [if_pos (isWhole_iff.2 (.inl rfl))]; rfl
  | case2 rest ih =>
    by_cases hrest : rest = []
    · have hwhole : IsWhole ['\n'] := isWhole_iff.2 (.inr ⟨[], rfl⟩)
      rw [hrest, if_pos hwhole]
      rfl
    · simp only [List.length_cons, ih, List.count_cons_self, isWhole_cons hrest]
      omega
  | case3 rest ih =>
    by_cases hrest : rest = []
    · have hwhole : IsWhole ['\r', '\n'] := isWhole_iff.2 (.inr ⟨['\r'], rfl⟩)
      rw [hrest, if_pos hwhole]
      rfl
    · simp only [List.length_cons, ih, List.count_cons_of_ne (show '\r' ≠ '\n' by decide),
        List.count_cons_self, isWhole_cons (List.cons_ne_nil _ _), isWhole_cons hrest]
      omega
  | case4 c rest hc _ hlines _ =>
    obtain rfl : rest = [] := by
      by_contra hrest
      exact lines_ne_nil hrest hlines
    have hwhole : ¬IsWhole [c] := fun h => hc (h c rfl)
    rw [if_neg hwhole, List.count_cons_of_ne hc]
    rfl
  | case5 c rest hc _ first more hlines ih =>
    have hrest : rest ≠ [] := by
      rintro rfl
      cases hlines
    rw [hlines] at ih
    rw [List.count_cons_of_ne hc]
    simp only [isWhole_cons hrest]
    exact ih

end Bundler.Text

import Bundler.Location
import Bundler.Proofs.Text.Offset
import Mathlib.Data.List.Count
import Mathlib.Data.List.TakeWhile

/-!
# Positions and offsets

A position is read off the text before an offset, line feeds and characters together. An offset is
found from a position the other way round: by passing the line feeds of the lines before, and then
the characters of the line. The two undo each other, so the offsets that fall into no character and
the positions of a text correspond, and a later offset has a later position.

* `Position.after_line`, `Position.after_whole`: lines and columns as counts of what was read;
* `Position.offset?`: the offset that a position stands for;
* `Position.offset?_eq_some_iff`: passing line feeds and characters undoes `Position.after`;
* `Location.position?_corresponds`: offsets and positions of a text, one to one and in order.
-/

namespace Bundler

namespace Text

/-- What stands behind the first `n` line feeds of a text, if it has so many. -/
def behindFeeds? : Nat → List Char → Option (List Char)
  | 0, text => some text
  | _ + 1, [] => none
  | n + 1, c :: rest => if c = '\n' then behindFeeds? n rest else behindFeeds? (n + 1) rest

/-- A text that is a row of whole lines, each with its line feed. -/
def IsWhole (text : List Char) : Prop :=
  ∀ c ∈ text.getLast?, c = '\n'

instance : DecidablePred IsWhole := fun text =>
  decidable_of_iff (text.getLast?.all (· == '\n') = true) (by
    simp only [Option.all_eq_true, beq_iff_eq, IsWhole, Option.mem_def])

theorem isWhole_iff {text : List Char} :
    IsWhole text ↔ text = [] ∨ ∃ front, text = front ++ ['\n'] := by
  cases text using List.reverseRecOn with
  | nil => simp [IsWhole]
  | append_singleton text c => simp [IsWhole]

/-- A text is a row of whole lines and the start of a line. -/
theorem exists_whole (text : List Char) :
    ∃ whole line, text = whole ++ line ∧ IsWhole whole ∧ '\n' ∉ line := by
  induction text using List.reverseRecOn with
  | nil => exact ⟨[], [], rfl, isWhole_iff.2 (.inl rfl), List.not_mem_nil⟩
  | append_singleton text c ih =>
    by_cases hc : c = '\n'
    · exact ⟨text ++ [c], [], (List.append_nil _).symm, isWhole_iff.2 (.inr ⟨text, by rw [hc]⟩),
        List.not_mem_nil⟩
    · obtain ⟨whole, line, rfl, hwhole, hline⟩ := ih
      refine ⟨whole, line ++ [c], List.append_assoc _ _ _, hwhole, ?_⟩
      simp [hline, Ne.symm hc]

theorem behindFeeds?_append_feed (front rest : List Char) :
    behindFeeds? (front.count '\n' + 1) (front ++ '\n' :: rest) = some rest := by
  induction front with
  | nil => rw [List.count_nil, List.nil_append, behindFeeds?, if_pos rfl, behindFeeds?]
  | cons c front ih =>
    by_cases hc : c = '\n'
    · rw [hc, List.count_cons_self, List.cons_append, behindFeeds?, if_pos rfl, ih]
    · rw [List.count_cons_of_ne hc, List.cons_append, behindFeeds?, if_neg hc, ih]

/-- Whole lines are passed by passing as many line feeds as they have. -/
theorem behindFeeds?_append {whole : List Char} (h : IsWhole whole) (rest : List Char) :
    behindFeeds? (whole.count '\n') (whole ++ rest) = some rest := by
  rcases isWhole_iff.1 h with rfl | ⟨front, rfl⟩
  · rw [List.count_nil, List.nil_append, behindFeeds?]
  · rw [List.count_append, List.append_assoc]
    exact behindFeeds?_append_feed front rest

/-- By passing line feeds whole lines are passed. -/
theorem exists_of_behindFeeds? {n : Nat} {text rest : List Char}
    (h : behindFeeds? n text = some rest) :
    ∃ whole, text = whole ++ rest ∧ IsWhole whole ∧ whole.count '\n' = n := by
  fun_induction behindFeeds? n text with
  | case1 text => exact ⟨[], (Option.some.inj h).symm ▸ rfl, isWhole_iff.2 (.inl rfl), rfl⟩
  | case2 => cases h
  | case3 n more ih =>
    obtain ⟨whole, rfl, hwhole, rfl⟩ := ih h
    refine ⟨'\n' :: whole, rfl, isWhole_iff.2 (.inr ?_), List.count_cons_self⟩
    rcases isWhole_iff.1 hwhole with rfl | ⟨front, rfl⟩
    · exact ⟨[], rfl⟩
    · exact ⟨'\n' :: front, rfl⟩
  | case4 n c more hc ih =>
    obtain ⟨whole, rfl, hwhole, hcount⟩ := ih h
    refine ⟨c :: whole, rfl, isWhole_iff.2 (.inr ?_), by rw [List.count_cons_of_ne hc, hcount]⟩
    rcases isWhole_iff.1 hwhole with rfl | ⟨front, rfl⟩
    · cases hcount
    · exact ⟨c :: front, rfl⟩

theorem before?_append (read rest : List Char) :
    before? (read ++ rest) (byteLength read) = some read := by
  induction read with
  | nil => rw [byteLength_nil, before?]
  | cons c read ih =>
    have hpos := c.utf8Size_pos
    obtain ⟨n, hn⟩ : ∃ n, c.utf8Size + byteLength read = n + 1 :=
      ⟨c.utf8Size + byteLength read - 1, by omega⟩
    rw [byteLength_cons, hn, List.cons_append, before?, if_pos (by omega), ← hn,
      Nat.add_sub_cancel_left, ih]
    rfl

/-- Behind the end of a text stands all of it before an offset. -/
theorem before?_of_le {text : List Char} {offset : Nat} (h : byteLength text ≤ offset) :
    before? text offset = some text := by
  induction text generalizing offset with
  | nil => cases offset <;> rfl
  | cons c text ih =>
    rw [byteLength_cons] at h
    have hpos := c.utf8Size_pos
    obtain ⟨n, rfl⟩ : ∃ n, offset = n + 1 := ⟨offset - 1, by omega⟩
    rw [before?, if_pos (by omega), ih (by omega)]
    rfl

/-- Before an offset that falls into no character stands what is read up to it. -/
theorem mark_iff {text : List Char} {offset : Nat} :
    Mark text offset ↔ ∃ read rest, text = read ++ rest ∧ byteLength read = offset := by
  simp only [Mark, Goes, Nat.zero_add]
  exact exists_comm

end Text

namespace Position

/-- The order in which places are read: by their lines, and in a line by their columns. -/
def Before (p q : Position) : Prop :=
  p.line < q.line ∨ p.line = q.line ∧ p.column < q.column

instance (p q : Position) : Decidable (p.Before q) :=
  inferInstanceAs (Decidable (_ ∨ _))

theorem Before.trans {p q r : Position} (h : p.Before q) (hr : q.Before r) : p.Before r := by
  unfold Before at *
  omega

theorem before_next (p : Position) (c : Char) : p.Before (p.next c) := by
  unfold next
  split
  · exact .inl (Nat.lt_succ_self _)
  · exact .inr ⟨rfl, Nat.lt_succ_self _⟩

/-- What is read leads on. -/
theorem before_foldl {p : Position} {text : List Char} (h : text ≠ []) :
    p.Before (text.foldl next p) := by
  obtain ⟨c, rest, rfl⟩ := List.exists_cons_of_ne_nil h
  rw [List.foldl_cons]
  clear h
  induction rest generalizing p c with
  | nil => exact before_next p c
  | cons d rest ih => exact (before_next p c).trans (ih d)

/-- Within a line only the column grows. -/
theorem foldl_line {line : List Char} (h : '\n' ∉ line) (p : Position) :
    line.foldl next p = ⟨p.line, p.column + line.length⟩ := by
  induction line generalizing p with
  | nil => rfl
  | cons c line ih =>
    obtain ⟨hc, hline⟩ := not_or.1 (mt List.mem_cons.2 h)
    rw [List.foldl_cons, ih hline, next, if_neg (Ne.symm hc), List.length_cons]
    congr 1
    dsimp only
    omega

theorem line_after (text : List Char) : (after text).line = text.count '\n' + 1 := by
  induction text using List.reverseRecOn with
  | nil => rfl
  | append_singleton text c ih =>
    rw [after, List.foldl_concat, ← after, next, List.count_append]
    split
    · next hc => rw [hc, ih]; rfl
    · next hc => rw [ih, List.count_singleton, beq_false_of_ne hc]; rfl

/-- Whole lines end at the first column of the line that follows. -/
theorem after_whole {whole : List Char} (h : Text.IsWhole whole) :
    after whole = ⟨whole.count '\n' + 1, 1⟩ := by
  rcases Text.isWhole_iff.1 h with rfl | ⟨front, rfl⟩
  · rfl
  · rw [after, List.foldl_concat, ← after, next, if_pos rfl, line_after, List.count_append]
    rfl

/-- The line counts the line feeds of what was read, and the column the characters behind the last
    one. -/
theorem after_line {whole line : List Char} (h : Text.IsWhole whole) (hline : '\n' ∉ line) :
    after (whole ++ line) = ⟨whole.count '\n' + 1, line.length + 1⟩ := by
  rw [after, List.foldl_append, ← after, after_whole h, foldl_line hline, Nat.add_comm 1]

/-- The offset that a position of a text stands for: the line feeds of the lines before it are
    passed, and then the characters before it in its line. None if the text has no such line, or the
    line no such column. -/
def offset? (text : List Char) : Position → Option Nat
  | ⟨line + 1, column + 1⟩ => do
    let rest ← Text.behindFeeds? line text
    if column ≤ (rest.takeWhile (· != '\n')).length then
      some (Text.byteLength text - Text.byteLength (rest.drop column))
    else none
  | _ => none

theorem offset?_after (read rest : List Char) :
    offset? (read ++ rest) (after read) = some (Text.byteLength read) := by
  obtain ⟨whole, line, rfl, hwhole, hline⟩ := Text.exists_whole read
  have hall : ∀ c ∈ line, (c != '\n') = true := fun c hc =>
    bne_iff_ne.2 fun heq => hline (heq ▸ hc)
  rw [after_line hwhole hline, List.append_assoc, offset?, Text.behindFeeds?_append hwhole,
    Option.bind_eq_bind, Option.bind_some, List.takeWhile_append_of_pos hall, List.length_append,
    if_pos (Nat.le_add_right _ _), List.drop_left]
  simp only [Text.byteLength_append]
  congr 1
  omega

/-- The offset of a position is the end of the text that ends at this position. -/
theorem offset?_eq_some_iff {text : List Char} {p : Position} {offset : Nat} :
    offset? text p = some offset ↔
      ∃ read rest, text = read ++ rest ∧ Text.byteLength read = offset ∧ after read = p := by
  constructor
  · intro h
    unfold offset? at h
    split at h
    · next line column =>
      obtain ⟨rest, hrest, hoffset⟩ := Option.bind_eq_some_iff.1 h
      split at hoffset
      · next hcolumn =>
        obtain ⟨whole, rfl, hwhole, rfl⟩ := Text.exists_of_behindFeeds? hrest
        -- The characters before the column are those of the line, as the line is long enough.
        have htake : rest.take column = (rest.takeWhile (· != '\n')).take column := by
          conv_lhs => rw [← List.takeWhile_append_dropWhile (p := (· != '\n')) (l := rest)]
          rw [List.take_append_of_le_length hcolumn]
        have hline : '\n' ∉ rest.take column := by
          intro hmem
          rw [htake] at hmem
          exact absurd (List.mem_takeWhile_imp (List.mem_of_mem_take hmem)) (by decide)
        have hlength : (rest.take column).length = column := by
          rw [htake, List.length_take]
          omega
        refine ⟨whole ++ rest.take column, rest.drop column, ?_, ?_, ?_⟩
        · rw [List.append_assoc, List.take_append_drop]
        · obtain rfl := Option.some.inj hoffset
          rw [Text.byteLength_append, Text.byteLength_append]
          have hsplit := congrArg Text.byteLength (List.take_append_drop column rest)
          rw [Text.byteLength_append] at hsplit
          omega
        · rw [after_line hwhole hline, hlength]
      · cases hoffset
    · cases h
  · rintro ⟨read, rest, rfl, rfl, rfl⟩
    exact offset?_after read rest

end Position

namespace Location

/-- The position of a byte offset in a source, as the location of the offset tells it. -/
def position? (file : String) (source : List Char) (offset : Nat) : Option Position :=
  (at? file source offset).bind Location.position

theorem position?_eq (file : String) (source : List Char) (offset : Nat) :
    position? file source offset = (Text.before? source offset).map Position.after := by
  unfold position? at?
  cases Text.before? source offset <;> rfl

theorem position?_append (file : String) (read rest : List Char) :
    position? file (read ++ rest) (Text.byteLength read) = some (Position.after read) := by
  rw [position?_eq, Text.before?_append]
  rfl

/-- The offsets of a source that fall into no character correspond to its positions: each has a
    position, from which it is found again by passing line feeds and then characters, and each
    position that is found so is that of its offset. A later offset has a later position, and the
    offsets behind the end have that of the end. -/
theorem position?_corresponds (file : String) (source : List Char) :
    (∀ offset, Text.Mark source offset → ∃ p, position? file source offset = some p) ∧
    (∀ offset p, Text.Mark source offset ∧ position? file source offset = some p ↔
      p.offset? source = some offset) ∧
    (∀ a b p q, Text.Mark source a → Text.Mark source b → a < b →
      position? file source a = some p → position? file source b = some q → p.Before q) ∧
    ∀ offset, Text.byteLength source ≤ offset →
      position? file source offset = position? file source (Text.byteLength source) := by
  refine ⟨fun offset hmark => ?_, fun offset p => ?_, fun a b p q ha hb hlt hp hq => ?_,
    fun offset hle => ?_⟩
  · obtain ⟨read, rest, rfl, rfl⟩ := Text.mark_iff.1 hmark
    exact ⟨_, position?_append file read rest⟩
  · rw [Position.offset?_eq_some_iff]
    constructor
    · rintro ⟨hmark, hp⟩
      obtain ⟨read, rest, rfl, rfl⟩ := Text.mark_iff.1 hmark
      rw [position?_append] at hp
      exact ⟨read, rest, rfl, rfl, Option.some.inj hp⟩
    · rintro ⟨read, rest, rfl, rfl, rfl⟩
      exact ⟨Text.mark_iff.2 ⟨read, rest, rfl, rfl⟩, position?_append file read rest⟩
  · obtain ⟨more, ha⟩ := ha
    obtain ⟨rest, hb⟩ := hb
    obtain ⟨between, rfl, hlength⟩ := ha.between hb (Nat.le_of_lt hlt)
    obtain ⟨read, rfl, hread⟩ := ha
    -- What stands between the two is not empty, and moves the position on.
    have hne : between ≠ [] := by
      rintro rfl
      rw [Text.byteLength_nil] at hlength
      omega
    rw [Nat.zero_add] at hread
    rw [← hread, position?_append] at hp
    rw [← hlength, ← hread, ← Text.byteLength_append, ← List.append_assoc, position?_append] at hq
    rw [← Option.some.inj hp, ← Option.some.inj hq, Position.after, Position.after,
      List.foldl_append]
    exact Position.before_foldl hne
  · rw [position?_eq, position?_eq, Text.before?_of_le hle, Text.before?_of_le (Nat.le_refl _)]

/-- A text with a character of two bytes, a carriage return and an empty line. -/
theorem position?_corresponds_mixed :
    Text.Mark "é\r\n\nb".toList 2 ∧ Text.Mark "é\r\n\nb".toList 5 ∧
      position? "a.js" "é\r\n\nb".toList 2 = some ⟨1, 2⟩ ∧
      position? "a.js" "é\r\n\nb".toList 5 = some ⟨3, 1⟩ ∧
      Position.Before ⟨1, 2⟩ ⟨3, 1⟩ ∧
      Position.offset? "é\r\n\nb".toList ⟨1, 2⟩ = some 2 ∧
      position? "a.js" "é\r\n\nb".toList 9 = position? "a.js" "é\r\n\nb".toList 6 := by
  have hfirst : Text.Mark "é\r\n\nb".toList 2 := ⟨"\r\n\nb".toList, "é".toList, rfl, rfl⟩
  have hsecond : Text.Mark "é\r\n\nb".toList 5 := ⟨"b".toList, "é\r\n\n".toList, rfl, rfl⟩
  have hp : position? "a.js" "é\r\n\nb".toList 2 = some ⟨1, 2⟩ := by decide
  have hq : position? "a.js" "é\r\n\nb".toList 5 = some ⟨3, 1⟩ := by decide
  obtain ⟨-, hoffset, horder, hend⟩ := position?_corresponds "a.js" "é\r\n\nb".toList
  exact ⟨hfirst, hsecond, hp, hq, horder 2 5 _ _ hfirst hsecond (by decide) hp hq,
    (hoffset 2 ⟨1, 2⟩).1 ⟨hfirst, hp⟩, hend 9 (by decide)⟩

end Location

end Bundler

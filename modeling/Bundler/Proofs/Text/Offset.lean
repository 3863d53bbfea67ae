import Bundler.Text.Edit
import Mathlib.Data.List.Infix

/-!
# Offsets

An offset into a text counts bytes, so it may fall into a character. One that does not splits the
text in two, and no byte is lost.

* `Text.Goes`: a text goes on at an offset with what is left of it;
* `Text.Mark`: an offset that falls into no character;
* `Text.Goes.between`: a text comes to the earlier of two offsets first.
-/

namespace Bundler.Text

/-! ### Sizes -/

@[simp] theorem byteLength_nil : byteLength [] = 0 := rfl

@[simp] theorem byteLength_cons (c : Char) (rest : List Char) :
    byteLength (c :: rest) = c.utf8Size + byteLength rest := rfl

@[simp] theorem byteLength_append (text more : List Char) :
    byteLength (text ++ more) = byteLength text + byteLength more := by
  induction text with
  | nil => simp
  | cons c rest ih => simp [ih, Nat.add_assoc]

theorem byteLength_pos {text : List Char} (h : text ≠ []) : 0 < byteLength text := by
  obtain ⟨c, rest, rfl⟩ := List.exists_cons_of_ne_nil h
  have := c.utf8Size_pos
  rw [byteLength_cons]
  omega

/-- A split text is all there. -/
theorem splitBytes_append (n : Nat) (text : List Char) :
    (splitBytes n text).1 ++ (splitBytes n text).2 = text := by
  fun_induction splitBytes n text with
  | case1 => rfl
  | case2 n c rest h taken left hsplit ih =>
    rw [hsplit] at ih
    exact congrArg (c :: ·) ih
  | case3 => rfl

/-- A text is split behind a part of it. -/
theorem splitBytes_byteLength (text more : List Char) :
    splitBytes (byteLength text) (text ++ more) = (text, more) := by
  induction text with
  | nil =>
    cases more with
    | nil => rfl
    | cons c rest => simp [splitBytes, Nat.ne_of_gt c.utf8Size_pos]
  | cons c rest ih => simp [splitBytes, ih]

/-- Where a text is split is known from how long its first part is. -/
theorem append_inj {text other more rest : List Char} (h : text ++ more = other ++ rest)
    (hlength : byteLength text = byteLength other) : text = other ∧ more = rest := by
  have hsplit := splitBytes_byteLength text more
  rw [h, hlength, splitBytes_byteLength] at hsplit
  exact ⟨(congrArg Prod.fst hsplit).symm, (congrArg Prod.snd hsplit).symm⟩

/-! ### Offsets between characters -/

/-- A text that starts at an offset goes on at a later one with what is left of it. -/
def Goes (offset : Nat) (text : List Char) (later : Nat) (rest : List Char) : Prop :=
  ∃ read, text = read ++ rest ∧ offset + byteLength read = later

/-- An offset into a text that falls into no character. -/
def Mark (text : List Char) (offset : Nat) : Prop :=
  ∃ rest, Goes 0 text offset rest

namespace Goes

variable {text next rest : List Char} {offset later last : Nat}

theorem refl (offset : Nat) (text : List Char) : Goes offset text offset text :=
  ⟨[], rfl, rfl⟩

theorem skip (offset : Nat) (read rest : List Char) :
    Goes offset (read ++ rest) (offset + byteLength read) rest :=
  ⟨read, rfl, rfl⟩

theorem trans (h : Goes offset text later next) (hnext : Goes later next last rest) :
    Goes offset text last rest := by
  obtain ⟨read, rfl, rfl⟩ := h
  obtain ⟨more, rfl, rfl⟩ := hnext
  exact ⟨read ++ more, (List.append_assoc _ _ _).symm, by rw [byteLength_append, Nat.add_assoc]⟩

theorem le (h : Goes offset text later rest) : offset ≤ later := by
  obtain ⟨read, -, rfl⟩ := h
  exact Nat.le_add_right _ _

/-- A text comes to the earlier of two offsets first. -/
theorem between (h : Goes offset text later next) (hlast : Goes offset text last rest)
    (hle : later ≤ last) : Goes later next last rest := by
  obtain ⟨read, rfl, rfl⟩ := h
  obtain ⟨more, heq, rfl⟩ := hlast
  rcases List.append_eq_append_iff.1 heq with ⟨between, rfl, rfl⟩ | ⟨between, rfl, rfl⟩
  · exact ⟨between, rfl, by rw [byteLength_append, Nat.add_assoc]⟩
  · -- The later offset is the same one.
    obtain rfl : between = [] := by
      by_contra hne
      have := byteLength_pos hne
      rw [byteLength_append] at hle
      omega
    exact ⟨[], rfl, by simp⟩

end Goes

theorem mark_zero (text : List Char) : Mark text 0 :=
  ⟨text, .refl 0 text⟩

/-- An offset that falls into no character is none behind the end. -/
theorem Mark.le {text : List Char} {offset : Nat} (h : Mark text offset) :
    offset ≤ byteLength text := by
  obtain ⟨rest, read, rfl, rfl⟩ := h
  rw [byteLength_append, Nat.zero_add]
  exact Nat.le_add_right _ _

end Bundler.Text

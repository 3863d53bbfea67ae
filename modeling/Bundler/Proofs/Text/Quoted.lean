import Bundler.Json.Reader
import Mathlib.Tactic.SplitIfs

/-!
# Quoted texts read back

What is written between quotes reads back as the text that was quoted, whatever follows the closing
quote. So a quoted text ends where it does, and two of them are alike only for one text.

* `Text.Escaped`: the three ways in which a character is written;
* `Text.unescape_escapeAll`: the inside of a quoted text stands for that text;
* `Json.takeInside?_escapeAll`: the inside ends at the closing quote;
* `Text.quote_noLineEnd`: a quoted text stands on one line;
* `Text.quote_append_inj`: a text that starts with a quoted one tells what was quoted, and the rest.
-/

namespace Bundler

namespace Text

/-- How a character may be written inside quotes. -/
inductive Escaped (c : Char) : List Char → Prop where
  /-- By a letter after a backslash. -/
  | simple {letter : Char} (hletter : letter ≠ 'u') (h : simpleEscape? letter = some c) :
    Escaped c ['\\', letter]
  /-- By its number. -/
  | numbered {high low : Char} (h : hexFour? '0' '0' high low = some c.toNat)
      (hsmall : c.toNat < 32) :
    Escaped c ['\\', 'u', '0', '0', high, low]
  /-- As it is. -/
  | plain (hquote : c ≠ '"') (hslash : c ≠ '\\') (hlarge : ¬c.toNat < 32) : Escaped c [c]

/-- The two last digits of a control character write its number. -/
theorem hexFour?_hexDigit {n : Nat} (h : n < 32) :
    hexFour? '0' '0' (hexDigit (n / 16)) (hexDigit (n % 16)) = some n := by
  have hall : ∀ n : Fin 32,
      hexFour? '0' '0' (hexDigit (n / 16)) (hexDigit (n % 16)) = some n.val := by
    decide
  exact hall ⟨n, h⟩

theorem escaped_escape (c : Char) : Escaped c (escape c) := by
  unfold escape
  split_ifs with hquote hslash hline hreturn htab hback hform hsmall
  · exact .simple (by decide) (by rw [hquote]; rfl)
  · exact .simple (by decide) (by rw [hslash]; rfl)
  · exact .simple (by decide) (by rw [hline]; rfl)
  · exact .simple (by decide) (by rw [hreturn]; rfl)
  · exact .simple (by decide) (by rw [htab]; rfl)
  · exact .simple (by decide) (by rw [hback]; rfl)
  · exact .simple (by decide) (by rw [hform]; rfl)
  · exact .numbered (hexFour?_hexDigit hsmall) hsmall
  · exact .plain hquote hslash hsmall

/-- What is written for a character stands for it. -/
theorem Escaped.unescape_append {c : Char} {written : List Char} (h : Escaped c written)
    (rest : List Char) : unescape (written ++ rest) = (unescape rest).map (c :: ·) := by
  cases h with
  | simple hletter h =>
    simp only [List.cons_append, List.nil_append, unescape, h, hletter, false_implies, implies_true,
      Option.bind_eq_bind, Option.bind_some]
    cases unescape rest <;> rfl
  | numbered h hsmall =>
    simp only [List.cons_append, List.nil_append, unescape, h, Option.bind_eq_bind, Option.bind_some]
    -- The number of a control character is no half of a surrogate pair.
    rw [if_neg (by omega), if_neg (by omega), Char.ofNat_toNat]
    cases unescape rest <;> rfl
  | plain _ hslash => simp [unescape, hslash]

/-- The inside of a quoted text stands for that text. -/
theorem unescape_escapeAll (text : List Char) : unescape (escapeAll text) = some text := by
  induction text with
  | nil => rfl
  | cons c text ih =>
    rw [escapeAll, List.flatMap_cons, (escaped_escape c).unescape_append, ← escapeAll, ih]
    rfl

/-- Digits that write a number have values. -/
theorem hexValue?_of_hexFour? {a b c d : Char} {n : Nat} (h : hexFour? a b c d = some n) :
    ∀ digit ∈ [a, b, c, d], hexValue? digit ≠ none := by
  simp only [hexFour?, Option.bind_eq_bind, Option.bind_eq_some_iff] at h
  obtain ⟨_, ha, _, hb, _, hc, _, hd, -⟩ := h
  simp [ha, hb, hc, hd]

theorem Escaped.noLineEnd {c : Char} {written : List Char} (h : Escaped c written) :
    ∀ d ∈ written, d ≠ '\n' ∧ d ≠ '\r' := by
  cases h with
  | @simple letter _ h =>
    have hletter : letter ≠ '\n' ∧ letter ≠ '\r' := by
      constructor <;> rintro rfl <;> cases h
    simpa using hletter
  | @numbered high low h =>
    have hdigit : ∀ digit ∈ ['0', '0', high, low], digit ≠ '\n' ∧ digit ≠ '\r' := by
      intro digit hmem
      constructor <;> rintro rfl <;> exact hexValue?_of_hexFour? h _ hmem rfl
    simpa using hdigit
  | plain _ _ hlarge =>
    intro d hd
    obtain rfl := List.mem_singleton.1 hd
    constructor <;> rintro rfl <;> exact hlarge (by decide)

/-- A quoted text stands on one line. -/
theorem quote_noLineEnd (text : String) : ∀ c ∈ (quote text).toList, c ≠ '\n' ∧ c ≠ '\r' := by
  intro c hc
  rw [quote, String.toList_ofList, List.cons_append, List.mem_cons, List.mem_append,
    List.mem_singleton] at hc
  rcases hc with rfl | hc | rfl
  · decide
  · obtain ⟨d, -, hd⟩ := List.mem_flatMap.1 hc
    exact (escaped_escape d).noLineEnd c hd
  · decide

theorem escapeAll_injective : Function.Injective escapeAll := by
  intro text other h
  have h := congrArg unescape h
  rw [unescape_escapeAll, unescape_escapeAll] at h
  exact Option.some.inj h

end Text

namespace Json

/-- A reader of the inside takes what is written for a character. -/
theorem takeInside?_append {c : Char} {written : List Char} (h : Text.Escaped c written)
    (rest : List Char) :
    takeInside? (written ++ rest) =
      (takeInside? rest).map fun (inside, rest) => (written ++ inside, rest) := by
  cases h with
  | simple hletter h => simp [takeInside?, hletter, h]
  | numbered h _ => simp [takeInside?, h]
  | plain _ hslash hlarge => simp [takeInside?, hslash, hlarge]

/-- The inside of a quoted text ends at the closing quote. -/
theorem takeInside?_escapeAll (text rest : List Char) :
    takeInside? (Text.escapeAll text ++ '"' :: rest) = some (Text.escapeAll text, rest) := by
  induction text with
  | nil => rw [Text.escapeAll, List.flatMap_nil, List.nil_append, takeInside?]
  | cons c text ih =>
    rw [Text.escapeAll, List.flatMap_cons, List.append_assoc,
      takeInside?_append (Text.escaped_escape c), ← Text.escapeAll, ih]
    rfl

/-- A text between quotes ends where it does, whatever follows. -/
theorem quoted_append_inj {text other rest more : List Char}
    (h : quoted (Text.escapeAll text) ++ rest = quoted (Text.escapeAll other) ++ more) :
    text = other ∧ rest = more := by
  have h : takeInside? (Text.escapeAll text ++ '"' :: rest) =
      takeInside? (Text.escapeAll other ++ '"' :: more) := by
    simp only [quoted, List.cons_append, List.append_assoc, List.nil_append, List.cons.injEq,
      true_and] at h
    rw [h]
  rw [takeInside?_escapeAll, takeInside?_escapeAll] at h
  obtain ⟨htext, hrest⟩ := Prod.mk.inj (Option.some.inj h)
  exact ⟨Text.escapeAll_injective htext, hrest⟩

end Json

/-- A quoted text ends where it does, whatever follows. -/
theorem Text.quote_append_inj {text other : String} {rest more : List Char}
    (h : (quote text).toList ++ rest = (quote other).toList ++ more) :
    text = other ∧ rest = more := by
  rw [quote, quote, String.toList_ofList, String.toList_ofList] at h
  obtain ⟨htext, hrest⟩ := Json.quoted_append_inj h
  exact ⟨String.toList_inj.1 htext, hrest⟩

end Bundler

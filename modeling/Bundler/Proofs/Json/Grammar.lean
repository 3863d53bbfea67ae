import Bundler.Proofs.Text.Quoted
import Mathlib.Data.List.DropRight

/-!
# The grammar of JSON

Which texts write which values, as the standard has it: with any blanks between the parts of a
value, and with strings and numbers as they are written. The readers take exactly such a text off
what they are given, so a whole text reads back as the value that it writes, if that nests no deeper
than a reader follows.

* `Json.Writes`: a text writes a value that nests at most so deep;
* `Json.Spells`: the same with blanks around it;
* `Json.takeNumber?_append`, `Json.takeInside?_of_isInside`: what is read of numbers and strings;
* `Json.takes_of_writes`: a reader takes a value off a text;
* `Json.parse?_of_spells`: a text is read as the value that it writes.
-/

namespace Bundler.Json

/-! ### Numbers, strings and blanks -/

/-- A text of blanks. -/
def IsSpaces (text : List Char) : Prop :=
  ∀ c ∈ text, isSpace c = true

/-- At least one digit. -/
def IsDigits (text : List Char) : Prop :=
  text ≠ [] ∧ ∀ c ∈ text, isDigit c = true

/-- The whole part of a number: a zero alone, or digits that start with another one. -/
inductive IsInteger : List Char → Prop where
  | zero : IsInteger ['0']
  | digits {text : List Char} (h : IsDigits text) (hzero : text.head? ≠ some '0') : IsInteger text

/-- The fraction of a number, which may be missing. -/
inductive IsFraction : List Char → Prop where
  | none : IsFraction []
  | point {digits : List Char} (h : IsDigits digits) : IsFraction ('.' :: digits)

/-- The exponent of a number, which may be missing. -/
inductive IsExponent : List Char → Prop where
  | none : IsExponent []
  | letter {e : Char} {sign digits : List Char} (he : e = 'e' ∨ e = 'E')
    (hsign : sign = [] ∨ sign = ['+'] ∨ sign = ['-']) (h : IsDigits digits) :
    IsExponent (e :: sign ++ digits)

/-- A number: a minus sign, if there is one, a whole part, a fraction and an exponent. -/
inductive IsNumber : List Char → Prop where
  | parts {minus whole fraction exponent : List Char} (hminus : minus = [] ∨ minus = ['-'])
    (hwhole : IsInteger whole) (hfraction : IsFraction fraction) (hexponent : IsExponent exponent) :
    IsNumber (minus ++ whole ++ fraction ++ exponent)

/-- What may stand between the quotes of a string. -/
inductive IsInside : List Char → Prop where
  | nil : IsInside []
  /-- A character that stands for itself. -/
  | plain {c : Char} {rest : List Char} (hcontrol : ¬c.toNat < 32) (hquote : c ≠ '"')
    (hslash : c ≠ '\\') (hrest : IsInside rest) : IsInside (c :: rest)
  /-- An escape with one letter. -/
  | simple {c : Char} {rest : List Char} (hletter : (Text.simpleEscape? c).isSome)
    (hrest : IsInside rest) : IsInside ('\\' :: c :: rest)
  /-- An escape with four hexadecimal digits. -/
  | numbered {a b c d : Char} {rest : List Char} (hdigits : (Text.hexFour? a b c d).isSome)
    (hrest : IsInside rest) : IsInside ('\\' :: 'u' :: a :: b :: c :: d :: rest)

/-- Behind a value stands a blank, a comma, a closing bracket or nothing. -/
def Follows (rest : List Char) : Prop :=
  ∀ c ∈ rest.head?, isSpace c = true ∨ c = ',' ∨ c = ']' ∨ c = '\x7d'

/-! ### Values -/

/-- A value with its text and the blanks around it. -/
structure Placed where
  /-- The blanks before the value. -/
  before : List Char
  /-- The value. -/
  value : Json
  /-- The text that writes the value. -/
  text : List Char
  /-- The blanks after the value. -/
  after : List Char

/-- The text of a value and of the blanks around it. -/
def Placed.written (placed : Placed) : List Char :=
  placed.before ++ placed.text ++ placed.after

/-- Blanks stand around the value. -/
def Placed.IsSpaced (placed : Placed) : Prop :=
  IsSpaces placed.before ∧ IsSpaces placed.after

/-- A member of an object, with the blanks around its name and its value. -/
structure Named where
  /-- The blanks before the name. -/
  before : List Char
  /-- The name, as it is written between its quotes. -/
  name : List Char
  /-- The blanks after the name. -/
  after : List Char
  /-- The value. -/
  placed : Placed

/-- The text of a member. -/
def Named.written (named : Named) : List Char :=
  named.before ++ quoted named.name ++ named.after ++ ':' :: named.placed.written

/-- The member itself. -/
def Named.member (named : Named) : List Char × Json :=
  (named.name, named.placed.value)

/-- Blanks stand around a name that is the inside of a string, and around the value. -/
def Named.IsSpaced (named : Named) : Prop :=
  IsSpaces named.before ∧ IsInside named.name ∧ IsSpaces named.after ∧ named.placed.IsSpaced

/-- A text writes a value that nests at most so many levels deep. -/
inductive Writes : Nat → Json → List Char → Prop where
  | null {depth : Nat} : Writes depth .null "null".toList
  | true {depth : Nat} : Writes depth (.bool true) "true".toList
  | false {depth : Nat} : Writes depth (.bool false) "false".toList
  | number {depth : Nat} {digits : List Char} (h : IsNumber digits) :
    Writes depth (.number digits) digits
  | string {depth : Nat} {inside : List Char} (h : IsInside inside) :
    Writes depth (.written inside) (quoted inside)
  | noElements {depth : Nat} {space : List Char} (h : IsSpaces space) :
    Writes (depth + 1) (.array []) ('[' :: space ++ [']'])
  | elements {depth : Nat} {items : List Placed} (hne : items ≠ [])
    (hspaced : ∀ item ∈ items, item.IsSpaced)
    (h : ∀ item ∈ items, Writes depth item.value item.text) :
    Writes (depth + 1) (.array (items.map Placed.value))
      ('[' :: [','].intercalate (items.map Placed.written) ++ [']'])
  | noMembers {depth : Nat} {space : List Char} (h : IsSpaces space) :
    Writes (depth + 1) (.object []) ('\x7b' :: space ++ ['\x7d'])
  | members {depth : Nat} {items : List Named} (hne : items ≠ [])
    (hspaced : ∀ item ∈ items, item.IsSpaced)
    (h : ∀ item ∈ items, Writes depth item.placed.value item.placed.text) :
    Writes (depth + 1) (.object (items.map Named.member))
      ('\x7b' :: [','].intercalate (items.map Named.written) ++ ['\x7d'])

/-- A text writes a value, with blanks around it. -/
def Spells (depth : Nat) (value : Json) (text : List Char) : Prop :=
  ∃ before inner after, IsSpaces before ∧ IsSpaces after ∧ Writes depth value inner ∧
    text = before ++ inner ++ after

/-! ### Readers of the parts -/

theorem skipSpace_append {space : List Char} (h : IsSpaces space) (rest : List Char) :
    skipSpace (space ++ rest) = skipSpace rest :=
  List.dropWhile_append_of_pos h

theorem skipSpace_of_head {c : Char} (h : isSpace c = false) (rest : List Char) :
    skipSpace (c :: rest) = c :: rest :=
  List.dropWhile_cons_of_neg (by simp [h])

/-- No character of a number stands first. -/
def StopsNumber (rest : List Char) : Prop :=
  ∀ c ∈ rest.head?, isDigit c = false ∧ c ≠ '.' ∧ c ≠ 'e' ∧ c ≠ 'E'

theorem Follows.stopsNumber {rest : List Char} (h : Follows rest) : StopsNumber rest := by
  intro c hc
  rcases h c hc with hspace | rfl | rfl | rfl
  · simp only [isSpace, Bool.or_eq_true, beq_iff_eq] at hspace
    rcases hspace with ((rfl | rfl) | rfl) | rfl <;> decide
  · decide
  · decide
  · decide

theorem takeDigits?_append {digits rest : List Char} (h : IsDigits digits)
    (hrest : ∀ c ∈ rest.head?, isDigit c = false) :
    takeDigits? (digits ++ rest) = some (digits, rest) := by
  have hsplit : rest.takeWhile isDigit = [] ∧ rest.dropWhile isDigit = rest := by
    cases rest with
    | nil => exact ⟨rfl, rfl⟩
    | cons c rest =>
      have hc : ¬isDigit c = true := by simp [hrest c rfl]
      exact ⟨List.takeWhile_cons_of_neg hc, List.dropWhile_cons_of_neg hc⟩
  rw [takeDigits?, List.takeWhile_append_of_pos h.2, List.dropWhile_append_of_pos h.2, hsplit.1,
    hsplit.2, List.append_nil]
  simp [h.1]

theorem takeWhole?_append {whole rest : List Char} (h : IsInteger whole)
    (hrest : ∀ c ∈ rest.head?, isDigit c = false) :
    takeWhole? (whole ++ rest) = some (whole, rest) := by
  cases h with
  | zero =>
    have hnone : rest.head?.any isDigit = false := by
      rw [Option.any_eq_false]
      exact fun c hc => by simp [hrest c hc]
    rw [List.singleton_append, takeWhole?, hnone]
    rfl
  | digits h hzero =>
    obtain ⟨c, digits, rfl⟩ := List.exists_cons_of_ne_nil h.1
    rw [takeWhole?, takeDigits?_append h hrest]
    rintro more heq
    obtain ⟨rfl, -⟩ := List.cons.inj heq
    exact hzero rfl

theorem takeFraction?_append {fraction rest : List Char} (h : IsFraction fraction)
    (hrest : ∀ c ∈ rest.head?, isDigit c = false ∧ c ≠ '.') :
    takeFraction? (fraction ++ rest) = some (fraction, rest) := by
  cases h with
  | none =>
    rw [List.nil_append, takeFraction?]
    rintro more rfl
    exact (hrest '.' rfl).2 rfl
  | point h =>
    rw [List.cons_append, takeFraction?, takeDigits?_append h fun c hc => (hrest c hc).1]
    rfl

theorem takeSign_append {sign digits : List Char} (hsign : sign = [] ∨ sign = ['+'] ∨ sign = ['-'])
    (h : IsDigits digits) (rest : List Char) :
    takeSign (sign ++ (digits ++ rest)) = (sign, digits ++ rest) := by
  rcases hsign with rfl | rfl | rfl
  · obtain ⟨c, digits, rfl⟩ := List.exists_cons_of_ne_nil h.1
    have hc := h.2 c (.head _)
    rw [List.nil_append, List.cons_append, takeSign]
    · rintro more heq
      obtain ⟨rfl, -⟩ := List.cons.inj heq
      exact absurd hc (by decide)
    · rintro more heq
      obtain ⟨rfl, -⟩ := List.cons.inj heq
      exact absurd hc (by decide)
  · rfl
  · rfl

theorem takeExponent?_append {exponent rest : List Char} (h : IsExponent exponent)
    (hrest : StopsNumber rest) : takeExponent? (exponent ++ rest) = some (exponent, rest) := by
  cases h with
  | none =>
    cases rest with
    | nil => rfl
    | cons c rest =>
      obtain ⟨-, -, hlower, hupper⟩ := hrest c rfl
      rw [List.nil_append, takeExponent?, if_neg (not_or.2 ⟨hlower, hupper⟩)]
  | letter he hsign h =>
    rw [List.append_assoc, List.cons_append, takeExponent?, if_pos he, takeSign_append hsign h]
    dsimp only
    rw [takeDigits?_append h fun c hc => (hrest c hc).1]
    rfl

/-- What may stand first behind the digits before an exponent or its place. -/
theorem IsExponent.stops {exponent rest : List Char} (h : IsExponent exponent)
    (hrest : StopsNumber rest) : ∀ c ∈ (exponent ++ rest).head?, isDigit c = false ∧ c ≠ '.' := by
  intro c hc
  cases h with
  | none => exact ⟨(hrest c hc).1, (hrest c hc).2.1⟩
  | letter he =>
    obtain rfl := Option.some.inj hc
    rcases he with rfl | rfl <;> decide

theorem IsFraction.stops {fraction rest : List Char} (h : IsFraction fraction)
    (hrest : ∀ c ∈ rest.head?, isDigit c = false ∧ c ≠ '.') :
    ∀ c ∈ (fraction ++ rest).head?, isDigit c = false := by
  intro c hc
  cases h with
  | none => exact (hrest c hc).1
  | point =>
    obtain rfl := Option.some.inj hc
    decide

theorem IsInteger.head {whole : List Char} (h : IsInteger whole) :
    ∃ c rest, whole = c :: rest ∧ isDigit c = true := by
  cases h with
  | zero => exact ⟨'0', [], rfl, by decide⟩
  | digits h =>
    obtain ⟨c, digits, rfl⟩ := List.exists_cons_of_ne_nil h.1
    exact ⟨c, digits, rfl, h.2 c (.head _)⟩

/-- The whole part of a number does not start with a minus sign. -/
theorem IsInteger.append_ne {whole : List Char} (h : IsInteger whole) (rest more : List Char) :
    whole ++ rest ≠ '-' :: more := by
  obtain ⟨c, digits, rfl, hc⟩ := h.head
  intro heq
  obtain ⟨rfl, -⟩ := List.cons.inj heq
  exact absurd hc (by decide)

/-- A number is read as far as it goes. -/
theorem takeNumber?_append {digits rest : List Char} (h : IsNumber digits) (hrest : Follows rest) :
    takeNumber? (digits ++ rest) = some (digits, rest) := by
  cases h with
  | @parts minus whole fraction exponent hminus hwhole hfraction hexponent =>
    have hstop := hrest.stopsNumber
    have hafter := hexponent.stops hstop
    rcases hminus with rfl | rfl
    · have hhead := hwhole.append_ne (fraction ++ (exponent ++ rest))
      simp only [List.nil_append, List.append_assoc, takeNumber?,
        takeWhole?_append hwhole (hfraction.stops hafter), takeFraction?_append hfraction hafter,
        takeExponent?_append hexponent hstop, Option.bind_eq_bind, Option.bind_some, Option.pure_def]
    · simp only [List.cons_append, List.nil_append, List.append_assoc, takeNumber?,
        takeWhole?_append hwhole (hfraction.stops hafter), takeFraction?_append hfraction hafter,
        takeExponent?_append hexponent hstop, Option.bind_eq_bind, Option.bind_some, Option.pure_def]

/-- The inside of a string ends at the closing quote. -/
theorem takeInside?_of_isInside {inside : List Char} (h : IsInside inside) (rest : List Char) :
    takeInside? (inside ++ '"' :: rest) = some (inside, rest) := by
  induction h with
  | nil => rw [List.nil_append, takeInside?]
  | plain hcontrol hquote hslash _ ih => simp [takeInside?, hcontrol, hslash, ih]
  | @simple c _ hletter _ ih =>
    have hu : c ≠ 'u' := by
      rintro rfl
      exact absurd hletter (by decide)
    simp [takeInside?, hletter, hu, ih]
  | numbered hdigits _ ih => simp [takeInside?, hdigits, ih]

/-- What is written for a text may stand between quotes. -/
theorem isInside_escapeAll (text : List Char) : IsInside (Text.escapeAll text) := by
  induction text with
  | nil => exact .nil
  | cons c text ih =>
    rw [Text.escapeAll, List.flatMap_cons, ← Text.escapeAll]
    have hescaped := Text.escaped_escape c
    generalize Text.escape c = written at hescaped ⊢
    cases hescaped with
    | simple _ h => exact .simple (by rw [h]; rfl) ih
    | numbered h => exact .numbered (by rw [h]; rfl) ih
    | plain hquote hslash hlarge => exact .plain hlarge hquote hslash ih

/-! ### Readers of values -/

/-- A text starts with a character that is neither a blank nor a closing bracket. -/
def Starts (text : List Char) : Prop :=
  ∃ c rest, text = c :: rest ∧ isSpace c = false ∧ c ≠ ']'

theorem IsNumber.head {digits : List Char} (h : IsNumber digits) :
    ∃ c rest, digits = c :: rest ∧ (c = '-' ∨ isDigit c = true) := by
  cases h with
  | parts hminus hwhole =>
    rcases hminus with rfl | rfl
    · obtain ⟨c, digits, rfl, hc⟩ := hwhole.head
      exact ⟨c, _, rfl, .inr hc⟩
    · exact ⟨'-', _, rfl, .inl rfl⟩

theorem ne_of_isDigit {c d : Char} (h : c = '-' ∨ isDigit c = true) (hd : isDigit d = false)
    (hminus : d ≠ '-') : c ≠ d := by
  rintro rfl
  rcases h with rfl | h
  · exact hminus rfl
  · rw [h] at hd
    cases hd

theorem Writes.starts {depth : Nat} {value : Json} {text : List Char}
    (h : Writes depth value text) : Starts text := by
  cases h with
  | null => exact ⟨'n', _, rfl, by decide, by decide⟩
  | true => exact ⟨'t', _, rfl, by decide, by decide⟩
  | false => exact ⟨'f', _, rfl, by decide, by decide⟩
  | number h =>
    obtain ⟨c, rest, rfl, hc⟩ := h.head
    refine ⟨c, rest, rfl, ?_, ne_of_isDigit hc (by decide) (by decide)⟩
    simp only [isSpace, Bool.or_eq_false_iff, beq_eq_false_iff_ne]
    exact ⟨⟨⟨ne_of_isDigit hc (by decide) (by decide), ne_of_isDigit hc (by decide) (by decide)⟩,
      ne_of_isDigit hc (by decide) (by decide)⟩, ne_of_isDigit hc (by decide) (by decide)⟩
  | string => exact ⟨'"', _, rfl, by decide, by decide⟩
  | noElements | elements => exact ⟨'[', _, rfl, by decide, by decide⟩
  | noMembers | members => exact ⟨'\x7b', _, rfl, by decide, by decide⟩

theorem skipSpace_of_starts {text : List Char} (h : Starts text) (rest : List Char) :
    skipSpace (text ++ rest) = text ++ rest := by
  obtain ⟨c, more, rfl, hc, -⟩ := h
  exact skipSpace_of_head hc _

theorem skipSpace_skipSpace (text : List Char) : skipSpace (skipSpace text) = skipSpace text :=
  List.dropWhile_idempotent _ _

/-- Blanks before a value are passed over. -/
theorem takeValue?_congr {work depth : Nat} {text other : List Char}
    (h : skipSpace text = skipSpace other) :
    takeValue? work depth text = takeValue? work depth other := by
  cases work with
  | zero => rw [takeValue?, takeValue?]
  | succ work => rw [takeValue?, takeValue?, h]

theorem takeElements?_congr {work depth : Nat} {text other : List Char}
    (h : skipSpace text = skipSpace other) :
    takeElements? work depth text = takeElements? work depth other := by
  cases work with
  | zero => rw [takeElements?, takeElements?]
  | succ work => rw [takeElements?, takeElements?, takeValue?_congr h]

theorem takeMembers?_congr {work depth : Nat} {text other : List Char}
    (h : skipSpace text = skipSpace other) :
    takeMembers? work depth text = takeMembers? work depth other := by
  cases work with
  | zero => rw [takeMembers?, takeMembers?]
  | succ work => rw [takeMembers?, takeMembers?, h]

/-- A reader of a value takes it off its text, whatever follows. -/
def Takes (depth : Nat) (value : Json) (text : List Char) : Prop :=
  ∀ (work : Nat) (rest : List Char), 2 * text.length ≤ work → Follows rest →
    takeValue? work depth (text ++ rest) = some (value, rest)

/-- A value is taken off with the blanks before it. -/
theorem Takes.placed {depth work : Nat} {item : Placed} {rest : List Char}
    (h : Takes depth item.value item.text) (hspaced : item.IsSpaced)
    (hwork : 2 * item.text.length ≤ work) (hrest : Follows (item.after ++ rest)) :
    takeValue? work depth (item.written ++ rest) = some (item.value, item.after ++ rest) := by
  rw [Placed.written, List.append_assoc, List.append_assoc,
    takeValue?_congr (skipSpace_append hspaced.1 _)]
  exact h work _ hwork hrest

theorem follows_append {space rest : List Char} (h : IsSpaces space) (hrest : Follows rest) :
    Follows (space ++ rest) := by
  intro c hc
  cases space with
  | nil => exact hrest c hc
  | cons d space =>
    obtain rfl := Option.some.inj hc
    exact .inl (h d (.head _))

theorem follows_cons {c : Char} (h : c = ',' ∨ c = ']' ∨ c = '\x7d') (rest : List Char) :
    Follows (c :: rest) := by
  intro d hd
  obtain rfl := Option.some.inj hd
  exact .inr h

theorem intercalate_comma (text other : List Char) (texts : List (List Char)) :
    [','].intercalate (text :: other :: texts) =
      text ++ ',' :: [','].intercalate (other :: texts) := by
  rw [List.intercalate_cons_cons, List.append_assoc]
  rfl

/-- Elements are taken off up to the bracket that closes their array. -/
theorem takeElements?_of_takes {depth : Nat} {items : List Placed} (hne : items ≠ [])
    (hspaced : ∀ item ∈ items, item.IsSpaced)
    (h : ∀ item ∈ items, Takes depth item.value item.text) (rest : List Char) {work : Nat}
    (hwork : 2 * (([','].intercalate (items.map Placed.written)).length + 1) ≤ work) :
    takeElements? work depth ([','].intercalate (items.map Placed.written) ++ ']' :: rest) =
      some (items.map Placed.value, rest) := by
  induction items generalizing work with
  | nil => exact absurd rfl hne
  | cons first more ih =>
    obtain ⟨hspace, hspaces⟩ := List.forall_mem_cons.1 hspaced
    obtain ⟨hfirst, hmore⟩ := List.forall_mem_cons.1 h
    obtain ⟨work, rfl⟩ : ∃ less, work = less + 1 := ⟨work - 1, by omega⟩
    have hlength : first.text.length ≤ first.written.length := by
      simp only [Placed.written, List.length_append]
      omega
    cases more with
    | nil =>
      simp only [List.map_cons, List.map_nil, List.intercalate_singleton] at hwork ⊢
      have hvalue : takeValue? work depth (first.written ++ ']' :: rest) =
          some (first.value, first.after ++ ']' :: rest) :=
        hfirst.placed hspace (by omega) (follows_append hspace.2 (follows_cons (by decide) rest))
      simp only [takeElements?, hvalue, Option.bind_eq_bind, Option.bind_some,
        skipSpace_append hspace.2, skipSpace_of_head (c := ']') (by decide)]
      rfl
    | cons second more =>
      simp only [List.map_cons, intercalate_comma, List.length_append, List.length_cons,
        List.append_assoc, List.cons_append] at hwork ih ⊢
      have hvalue (text : List Char) : takeValue? work depth (first.written ++ ',' :: text) =
          some (first.value, first.after ++ ',' :: text) :=
        hfirst.placed hspace (by omega) (follows_append hspace.2 (follows_cons (by decide) text))
      have hless :
          2 * (([','].intercalate (second.written :: more.map Placed.written)).length + 1) ≤
            work := by
        omega
      simp only [takeElements?, hvalue, Option.bind_eq_bind, Option.bind_some,
        skipSpace_append hspace.2, skipSpace_of_head (c := ',') (by decide),
        ih (List.cons_ne_nil _ _) hspaces hmore hless]
      rfl

/-- Members are taken off up to the brace that closes their object. -/
theorem takeMembers?_of_takes {depth : Nat} {items : List Named} (hne : items ≠ [])
    (hspaced : ∀ item ∈ items, item.IsSpaced)
    (h : ∀ item ∈ items, Takes depth item.placed.value item.placed.text) (rest : List Char)
    {work : Nat}
    (hwork : 2 * (([','].intercalate (items.map Named.written)).length + 1) ≤ work) :
    takeMembers? work depth ([','].intercalate (items.map Named.written) ++ '\x7d' :: rest) =
      some (items.map Named.member, rest) := by
  induction items generalizing work with
  | nil => exact absurd rfl hne
  | cons first more ih =>
    obtain ⟨⟨hbefore, hname, hafter, hspace⟩, hspaces⟩ := List.forall_mem_cons.1 hspaced
    obtain ⟨hfirst, hmore⟩ := List.forall_mem_cons.1 h
    obtain ⟨work, rfl⟩ : ∃ less, work = less + 1 := ⟨work - 1, by omega⟩
    have hlength : first.placed.text.length ≤ first.written.length := by
      simp only [Named.written, Placed.written, List.length_append, List.length_cons]
      omega
    -- The name and the colon are read whatever follows the value.
    have hstart : ∀ text, skipSpace (first.written ++ text) =
        '"' :: (first.name ++ '"' :: (first.after ++ ':' :: (first.placed.written ++ text))) := by
      intro text
      simp only [Named.written, quoted, List.append_assoc, List.cons_append, List.nil_append,
        skipSpace_append hbefore, skipSpace_of_head (c := '"') (by decide)]
    cases more with
    | nil =>
      simp only [List.map_cons, List.map_nil, List.intercalate_singleton] at hwork ⊢
      have hvalue : takeValue? work depth (first.placed.written ++ '\x7d' :: rest) =
          some (first.placed.value, first.placed.after ++ '\x7d' :: rest) :=
        hfirst.placed hspace (by omega) (follows_append hspace.2 (follows_cons (by decide) rest))
      simp only [takeMembers?, hstart, takeInside?_of_isInside hname, hvalue, Option.bind_eq_bind,
        Option.bind_some, skipSpace_append hafter, skipSpace_of_head (c := ':') (by decide),
        skipSpace_append hspace.2, skipSpace_of_head (c := '\x7d') (by decide)]
      rfl
    | cons second more =>
      simp only [List.map_cons, intercalate_comma, List.length_append, List.length_cons,
        List.append_assoc, List.cons_append] at hwork ih ⊢
      have hvalue (text : List Char) : takeValue? work depth (first.placed.written ++ ',' :: text) =
          some (first.placed.value, first.placed.after ++ ',' :: text) :=
        hfirst.placed hspace (by omega) (follows_append hspace.2 (follows_cons (by decide) text))
      have hless : 2 * (([','].intercalate (second.written :: more.map Named.written)).length + 1) ≤
          work := by
        omega
      simp only [takeMembers?, hstart, takeInside?_of_isInside hname, hvalue, Option.bind_eq_bind,
        Option.bind_some, skipSpace_append hafter, skipSpace_of_head (c := ':') (by decide),
        skipSpace_append hspace.2, skipSpace_of_head (c := ',') (by decide),
        ih (List.cons_ne_nil _ _) hspaces hmore hless]
      rfl

theorem take?_append (word rest : List Char) : take? word (word ++ rest) = some rest := by
  induction word with
  | nil => rw [take?, List.nil_append]
  | cons c word ih => rw [List.cons_append, take?, if_pos rfl, ih]

/-- There is work left to take a value off whose text is not empty. -/
theorem takes_of_succ {depth : Nat} {value : Json} {c : Char} {text : List Char}
    (h : ∀ work rest, 2 * text.length + 1 ≤ work → Follows rest →
      takeValue? (work + 1) depth (c :: (text ++ rest)) = some (value, rest)) :
    Takes depth value (c :: text) := by
  intro work rest hwork hrest
  rw [List.length_cons] at hwork
  obtain ⟨work, rfl⟩ : ∃ less, work = less + 1 := ⟨work - 1, by omega⟩
  exact h work rest (by omega) hrest

theorem takes_number {depth : Nat} {digits : List Char} (h : IsNumber digits) :
    Takes depth (.number digits) digits := by
  have hstarts : Starts digits := (Writes.number h : Writes depth (.number digits) digits).starts
  obtain ⟨c, more, rfl, hc⟩ := h.head
  refine takes_of_succ fun work rest _ hrest => ?_
  rw [takeValue?, ← List.cons_append, skipSpace_of_starts hstarts]
  split
  case h_7 =>
    rw [takeNumber?_append h hrest]
    rfl
  -- No other value starts with a digit or a minus sign.
  all_goals
    next heq => exact absurd (List.cons.inj heq).1 (ne_of_isDigit hc (by decide) (by decide))

theorem takes_string {depth : Nat} {inside : List Char} (h : IsInside inside) :
    Takes depth (.written inside) (quoted inside) := by
  rw [quoted, List.cons_append]
  refine takes_of_succ fun work rest _ _ => ?_
  rw [takeValue?, skipSpace_of_head (by decide), List.append_assoc, List.singleton_append]
  simp only [takeInside?_of_isInside h, Option.map_some]

theorem exists_intercalate_append (text : List Char) (texts : List (List Char)) (rest : List Char) :
    ∃ tail, [','].intercalate (text :: texts) ++ rest = text ++ tail := by
  cases texts with
  | nil => exact ⟨rest, by rw [List.intercalate_singleton]⟩
  | cons other texts =>
    rw [intercalate_comma, List.append_assoc]
    exact ⟨_, rfl⟩

/-- The elements of an array do not start with its closing bracket. -/
theorem skipSpace_elements_ne {items : List Placed} (hne : items ≠ [])
    (hspaced : ∀ item ∈ items, item.IsSpaced) (hstarts : ∀ item ∈ items, Starts item.text)
    (rest more : List Char) :
    skipSpace ([','].intercalate (items.map Placed.written) ++ rest) ≠ ']' :: more := by
  obtain ⟨first, items, rfl⟩ := List.exists_cons_of_ne_nil hne
  obtain ⟨tail, htail⟩ := exists_intercalate_append first.written (items.map Placed.written) rest
  rw [List.map_cons, htail, Placed.written, List.append_assoc, List.append_assoc,
    skipSpace_append (hspaced first (.head _)).1, skipSpace_of_starts (hstarts first (.head _))]
  obtain ⟨c, text, htext, -, hc⟩ := hstarts first (.head _)
  rw [htext]
  exact fun heq => hc (List.cons.inj heq).1

/-- The members of an object do not start with its closing brace. -/
theorem skipSpace_members_ne {items : List Named} (hne : items ≠ [])
    (hspaced : ∀ item ∈ items, item.IsSpaced) (rest more : List Char) :
    skipSpace ([','].intercalate (items.map Named.written) ++ rest) ≠ '\x7d' :: more := by
  obtain ⟨first, items, rfl⟩ := List.exists_cons_of_ne_nil hne
  obtain ⟨tail, htail⟩ := exists_intercalate_append first.written (items.map Named.written) rest
  rw [List.map_cons, htail, Named.written, quoted, List.append_assoc, List.append_assoc,
    List.append_assoc, skipSpace_append (hspaced first (.head _)).1, List.cons_append,
    List.cons_append, skipSpace_of_head (by decide)]
  exact fun heq => absurd (List.cons.inj heq).1 (by decide)

theorem takes_array {depth : Nat} {items : List Placed} (hne : items ≠ [])
    (hspaced : ∀ item ∈ items, item.IsSpaced) (hstarts : ∀ item ∈ items, Starts item.text)
    (h : ∀ item ∈ items, Takes depth item.value item.text) :
    Takes (depth + 1) (.array (items.map Placed.value))
      ('[' :: [','].intercalate (items.map Placed.written) ++ [']']) := by
  rw [List.cons_append]
  refine takes_of_succ fun work rest hwork _ => ?_
  rw [List.length_append, List.length_singleton] at hwork
  have hless : 2 * (([','].intercalate (items.map Placed.written)).length + 1) ≤ work := by omega
  have htake := takeElements?_of_takes hne hspaced h rest hless
  rw [← takeElements?_congr (skipSpace_skipSpace _)] at htake
  rw [takeValue?, skipSpace_of_head (by decide), List.append_assoc, List.singleton_append]
  simp only
  split
  · next heq => exact absurd heq (skipSpace_elements_ne hne hspaced hstarts _ _)
  · rw [htake]
    rfl

theorem takes_object {depth : Nat} {items : List Named} (hne : items ≠ [])
    (hspaced : ∀ item ∈ items, item.IsSpaced)
    (h : ∀ item ∈ items, Takes depth item.placed.value item.placed.text) :
    Takes (depth + 1) (.object (items.map Named.member))
      ('\x7b' :: [','].intercalate (items.map Named.written) ++ ['\x7d']) := by
  rw [List.cons_append]
  refine takes_of_succ fun work rest hwork _ => ?_
  rw [List.length_append, List.length_singleton] at hwork
  have hless : 2 * (([','].intercalate (items.map Named.written)).length + 1) ≤ work := by omega
  have htake := takeMembers?_of_takes hne hspaced h rest hless
  rw [← takeMembers?_congr (skipSpace_skipSpace _)] at htake
  rw [takeValue?, skipSpace_of_head (by decide), List.append_assoc, List.singleton_append]
  simp only
  split
  · next heq => exact absurd heq (skipSpace_members_ne hne hspaced _ _)
  · rw [htake]
    rfl

/-- A reader of a value takes it off its text. -/
theorem takes_of_writes {depth : Nat} {value : Json} {text : List Char}
    (h : Writes depth value text) : Takes depth value text := by
  induction h with
  | null =>
    rw [show "null".toList = 'n' :: "ull".toList by decide]
    refine takes_of_succ fun _ _ _ _ => ?_
    rw [takeValue?, skipSpace_of_head (by decide)]
    simp only [take?_append, Option.map_some]
  | true =>
    rw [show "true".toList = 't' :: "rue".toList by decide]
    refine takes_of_succ fun _ _ _ _ => ?_
    rw [takeValue?, skipSpace_of_head (by decide)]
    simp only [take?_append, Option.map_some]
  | false =>
    rw [show "false".toList = 'f' :: "alse".toList by decide]
    refine takes_of_succ fun _ _ _ _ => ?_
    rw [takeValue?, skipSpace_of_head (by decide)]
    simp only [take?_append, Option.map_some]
  | number h => exact takes_number h
  | string h => exact takes_string h
  | noElements h =>
    rw [List.cons_append]
    refine takes_of_succ fun _ rest _ _ => ?_
    rw [takeValue?, skipSpace_of_head (by decide), List.append_assoc]
    simp only [skipSpace_append h, List.singleton_append, skipSpace_of_head (c := ']') (by decide)]
  | elements hne hspaced h ih =>
    exact takes_array hne hspaced (fun item hitem => (h item hitem).starts) ih
  | noMembers h =>
    rw [List.cons_append]
    refine takes_of_succ fun _ rest _ _ => ?_
    rw [takeValue?, skipSpace_of_head (by decide), List.append_assoc]
    simp only [skipSpace_append h, List.singleton_append,
      skipSpace_of_head (c := '\x7d') (by decide)]
  | members hne hspaced h ih => exact takes_object hne hspaced ih

/-- A text is read as the value that it writes. -/
theorem parse?_of_spells {value : Json} {text : List Char} (h : Spells maxDepth value text) :
    parse? text = some value := by
  obtain ⟨before, inner, after, hbefore, hafter, hwrites, rfl⟩ := h
  have hlength : 2 * inner.length ≤ 2 * (before ++ inner ++ after).length + 2 := by
    simp only [List.length_append]
    omega
  have hfollows : Follows after := by
    rw [← List.append_nil after]
    exact follows_append hafter nofun
  have htake := takes_of_writes hwrites _ after hlength hfollows
  rw [parse?, List.append_assoc, takeValue?_congr (skipSpace_append hbefore _),
    ← List.append_assoc, htake]
  have hrest : skipSpace after = [] := by
    rw [← List.append_nil after, skipSpace_append hafter]
    rfl
  simp [hrest]

end Bundler.Json

import Bundler.Proofs.Script.Gaps
import Bundler.Proofs.Text.Quoted

/-!
# Tokens known from their texts

A quoted text is a string of its own, whatever follows it, and the value of the string is the text
that was quoted. A name is a token of its own if what follows does not go on with it. The marks of
properties are tokens as well.

* `Lexeme.string_escapeAll`: the inside of a quoted text is read as that text;
* `Lexer.next_quote`: a quoted text is the next token, whatever follows it;
* `Lexeme.Spells`: the texts that write a name, with or without escapes;
* `Lexer.next_name`: such a text is the next token, if the name does not go on;
* `Lexer.next_dot`, `Lexer.next_bracket`: the marks of properties.
-/

namespace Bundler.Script

open Text (Escaped escapeAll quote)

/-! ### Quoted texts -/

namespace Lexeme

/-- An escape by one letter writes the same in a string. -/
theorem stringEscape?_simple {letter c : Char} (h : Text.simpleEscape? letter = some c)
    (rest : List Char) : stringEscape? (letter :: rest) = some (some (.char c), rest) := by
  unfold Text.simpleEscape? at h
  split at h <;> cases h <;> rfl

/-- The digits of both kinds of quoting are the same. -/
theorem digitValue_of_hexValue? {c : Char} {n : Nat} (h : Text.hexValue? c = some n) :
    isDigitOf 16 c = true ∧ digitValue c = n := by
  unfold Text.hexValue? at h
  unfold isDigitOf digitValue
  dsimp only at h ⊢
  split_ifs at h ⊢ <;> simp_all <;> omega

/-- An escape by four digits is read as their number. -/
theorem unicodeEscape?_of_hexFour? {a b c d : Char} {n : Nat} (h : Text.hexFour? a b c d = some n)
    (rest : List Char) : unicodeEscape? (a :: b :: c :: d :: rest) = some (n, rest) := by
  simp only [Text.hexFour?, Option.bind_eq_bind, Option.bind_eq_some_iff, Option.pure_def,
    Option.some.injEq] at h
  obtain ⟨i, ha, j, hb, k, hc, l, hd, rfl⟩ := h
  obtain ⟨hda, rfl⟩ := digitValue_of_hexValue? ha
  obtain ⟨hdb, rfl⟩ := digitValue_of_hexValue? hb
  obtain ⟨hdc, rfl⟩ := digitValue_of_hexValue? hc
  obtain ⟨hdd, rfl⟩ := digitValue_of_hexValue? hd
  have hopen : a ≠ '\x7b' := by
    rintro rfl
    exact absurd hda (by decide)
  unfold unicodeEscape?
  split
  next heq => exact absurd (List.cons.inj heq).1 hopen
  next heq =>
    cases heq
    rw [if_pos (by simp [hda, hdb, hdc, hdd])]
    simp [hexNumber]
  next hfour => exact absurd rfl (hfour a b c d rest)

/-- What is written for a character between quotes is read as that character. -/
theorem string_escaped {c : Char} {written : List Char} (h : Escaped c written) (rest : List Char)
    (fuel : Nat) (units : List StringUnit) :
    string '"' (fuel + 1) (written ++ rest) units = string '"' fuel rest (.char c :: units) := by
  cases h with
  | @simple letter _ h =>
    rw [List.cons_append, List.cons_append, List.nil_append, string, if_neg (by decide),
      if_neg (by decide), if_pos rfl, stringEscape?_simple h]
  | @numbered high low h hsmall =>
    have hunit : unicodeUnit? ('0' :: '0' :: high :: low :: rest) = some (.char c, rest) := by
      rw [unicodeUnit?_eq (unicodeEscape?_of_hexFour? h rest)]
      -- A control character is no half of a pair.
      rw [if_neg (by dsimp only; omega), unitOf, isSurrogate]
      rw [if_neg (by simp; omega), Char.ofNat_toNat]
    have hescape : stringEscape? ('u' :: '0' :: '0' :: high :: low :: rest) =
        some (some (.char c), rest) := by
      rw [stringEscape?, hunit]
      rfl
    simp only [List.cons_append, List.nil_append]
    rw [string, if_neg (by decide), if_neg (by decide), if_pos rfl, hescape]
  | plain hquote hslash hlarge =>
    have hend : ¬(c = '\n' ∨ c = '\r') := by
      rintro (rfl | rfl)
      · exact hlarge (by decide)
      · exact hlarge (by decide)
    rw [List.cons_append, List.nil_append, string, if_neg hquote, if_neg hend, if_neg hslash]

theorem length_pos_of_escaped {c : Char} {written : List Char} (h : Escaped c written) :
    0 < written.length := by
  cases h <;> exact Nat.succ_pos _

/-- The inside of a quoted text is read as the text that was quoted. -/
theorem string_escapeAll (text rest : List Char) {fuel : Nat}
    (hfuel : (escapeAll text).length < fuel) (units : List StringUnit) :
    string '"' fuel (escapeAll text ++ '"' :: rest) units =
      .done (units.reverse ++ text.map .char) rest := by
  obtain ⟨fuel, rfl⟩ := Nat.exists_eq_add_one_of_ne_zero (Nat.ne_of_gt (Nat.zero_lt_of_lt hfuel))
  induction text generalizing fuel units with
  | nil =>
    rw [escapeAll, List.flatMap_nil, List.nil_append, string, if_pos rfl, List.map_nil,
      List.append_nil]
  | cons c text ih =>
    have hc := Text.escaped_escape c
    have hpos := length_pos_of_escaped hc
    rw [escapeAll, List.flatMap_cons, ← escapeAll] at hfuel ⊢
    rw [List.length_append] at hfuel
    obtain ⟨fuel, rfl⟩ := Nat.exists_eq_add_one_of_ne_zero (show fuel ≠ 0 by omega)
    rw [List.append_assoc, string_escaped hc, ih _ _ (by omega), List.reverse_cons, List.map_cons,
      List.append_assoc, List.singleton_append]

theorem hasLegacyEscape_cons {c : Char} (h : c ≠ '\\') (rest : List Char) :
    hasLegacyEscape (c :: rest) = hasLegacyEscape rest := by
  rw [hasLegacyEscape]
  all_goals simp_all

/-- What is written for a character between quotes has no escape in the form of old. -/
theorem hasLegacyEscape_escaped {c : Char} {written : List Char} (h : Escaped c written)
    (rest : List Char) : hasLegacyEscape (written ++ rest) = hasLegacyEscape rest := by
  cases h with
  | simple _ h =>
    unfold Text.simpleEscape? at h
    split at h <;> cases h <;> rfl
  | @numbered high low h hsmall =>
    have hdigit (digit : Char) (hmem : digit ∈ ['0', '0', high, low]) : digit ≠ '\\' := by
      rintro rfl
      exact Text.hexValue?_of_hexFour? h _ hmem rfl
    show hasLegacyEscape ('0' :: '0' :: high :: low :: rest) = _
    rw [hasLegacyEscape_cons (by decide), hasLegacyEscape_cons (by decide),
      hasLegacyEscape_cons (hdigit high (by simp)), hasLegacyEscape_cons (hdigit low (by simp))]
  | plain _ hslash _ => exact hasLegacyEscape_cons hslash rest

/-- A quoted text has no escapes in the form of old, so it may stand in strict code. -/
theorem hasLegacyEscape_quote (text : String) : hasLegacyEscape (quote text).toList = false := by
  have hinside (text : List Char) :
      hasLegacyEscape (escapeAll text ++ ['"']) = hasLegacyEscape ['"'] := by
    induction text with
    | nil => rfl
    | cons c text ih =>
      rw [escapeAll, List.flatMap_cons, List.append_assoc,
        hasLegacyEscape_escaped (Text.escaped_escape c), ← escapeAll, ih]
  rw [quote, String.toList_ofList, List.cons_append, hasLegacyEscape_cons (by decide), hinside]
  rfl

end Lexeme

/-! ### Names -/

namespace Lexeme

/-- What goes on with no name. -/
def EndsName (rest : List Char) : Prop :=
  ∀ c ∈ rest.head?, isNamePart c = false ∧ c ≠ '\\'

theorem isNamePart_of_isNameStart {c : Char} (h : isNameStart c = true) : isNamePart c = true := by
  unfold isNameStart at h
  unfold isNamePart
  split_ifs at h ⊢
  · simp only [Char.isAlphanum, Bool.or_eq_true] at h ⊢
    tauto
  · rw [Unicode.isIdContinue, h, Bool.true_or]

/-- A character that starts no escape goes on with a name, or it ends the name. -/
theorem name_cons {c : Char} (hslash : c ≠ '\\') (fuel : Nat) (first : Bool) (rest read : List Char)
    (escaped : Bool) :
    name (fuel + 1) first (c :: rest) read escaped =
      if (if first then isNameStart c else isNamePart c) then
        name fuel false rest (c :: read) escaped
      else .done (String.ofList read.reverse, escaped) (c :: rest) := by
  rw [name]
  · exact fun _ hc _ => hslash hc
  · exact hslash

theorem ne_slash_of_isNamePart {c : Char} (h : isNamePart c = true) : c ≠ '\\' := by
  rintro rfl
  cases h

/-- A name that is read up to the end of a text is read so before all that does not go on with
    it. -/
theorem name_append {fuel : Nat} {first escaped : Bool} {text read rest : List Char}
    {value : String × Bool} (h : name fuel first text read escaped = .done value [])
    (hrest : EndsName rest) {more : Nat} (hmore : text.length < more) :
    name more first (text ++ rest) read escaped = .done value rest := by
  obtain ⟨more, rfl⟩ := Nat.exists_eq_add_one_of_ne_zero (Nat.ne_of_gt (Nat.zero_lt_of_lt hmore))
  fun_induction name fuel first text read escaped generalizing more with
  | case2 fuel first read escaped fits text code after hunicode hfits ih =>
    obtain ⟨d, digits, rfl, -, hread⟩ := unicodeEscape?_append hunicode
    simp only [List.length_cons, List.length_append] at hmore
    obtain ⟨more, rfl⟩ := Nat.exists_eq_add_one_of_ne_zero (show more ≠ 0 by omega)
    rw [List.cons_append, List.cons_append, List.append_assoc, name, hread]
    exact (if_pos hfits).trans (ih h more (by omega))
  | case6 fuel first read escaped fits c text hunicode hslash hfits ih =>
    rw [List.length_cons] at hmore
    obtain ⟨more, rfl⟩ := Nat.exists_eq_add_one_of_ne_zero (show more ≠ 0 by omega)
    rw [List.cons_append, name_cons hslash]
    exact (if_pos hfits).trans (ih h more (by omega))
  | case8 fuel first read escaped =>
    -- The text has ended, and what follows it does not go on with the name.
    cases h
    cases rest with
    | nil => rfl
    | cons c rest =>
      obtain ⟨hpart, hslash⟩ := hrest c rfl
      have hfits : ¬(if first then isNameStart c else isNamePart c) = true := by
        split
        · exact fun hstart => by simp [isNamePart_of_isNameStart hstart] at hpart
        · simp [hpart]
      rw [List.nil_append, name_cons hslash, if_neg hfits]
  | _ => cases h

/-- A text that writes a name, with or without escapes. -/
structure Spells (written : List Char) (word : String) (escaped : Bool) : Prop where
  /-- It starts as names do. -/
  start : ∃ c ∈ written.head?, (isNameStart c || c == '\\') = true
  /-- It is read as the name up to its end. -/
  read : name (written.length + 1) true written [] false = .done (word, escaped) []

/-- A text whose characters go on with a name is read up to its end. -/
theorem name_of_parts {text : List Char} (h : ∀ c ∈ text, isNamePart c = true) {fuel : Nat}
    (hfuel : text.length < fuel) (read : List Char) (escaped : Bool) :
    name fuel false text read escaped =
      .done (String.ofList (read.reverse ++ text), escaped) [] := by
  obtain ⟨fuel, rfl⟩ := Nat.exists_eq_add_one_of_ne_zero (Nat.ne_of_gt (Nat.zero_lt_of_lt hfuel))
  induction text generalizing fuel read with
  | nil => rw [List.append_nil, name]
  | cons c text ih =>
    obtain ⟨hpart, htext⟩ := List.forall_mem_cons.1 h
    rw [List.length_cons] at hfuel
    obtain ⟨fuel, rfl⟩ := Nat.exists_eq_add_one_of_ne_zero (show fuel ≠ 0 by omega)
    rw [name_cons (ne_slash_of_isNamePart hpart), ih htext _ _ (by omega), List.reverse_cons,
      List.append_assoc, List.singleton_append]
    exact if_pos hpart

/-- A text without escapes writes itself, if its characters are those of names. -/
theorem spells_of_parts {text : String} {c : Char} {rest : List Char} (h : text.toList = c :: rest)
    (hstart : isNameStart c = true) (hrest : ∀ d ∈ rest, isNamePart d = true) :
    Spells text.toList text false where
  start := ⟨c, by rw [h]; rfl, by rw [hstart, Bool.true_or]⟩
  read := by
    rw [h, List.length_cons, name_cons (ne_slash_of_isNamePart (isNamePart_of_isNameStart hstart)),
      name_of_parts hrest (Nat.lt_succ_self _), List.reverse_singleton, List.singleton_append, ← h,
      String.ofList_toList]
    exact if_pos hstart

end Lexeme

/-- The code points of the characters that stand between tokens. -/
def gapCodes : List Nat :=
  [0x09, 0x0A, 0x0B, 0x0C, 0x0D, 0x20, 0x85, 0xA0, 0x1680, 0x2028, 0x2029, 0x202F, 0x205F, 0x3000,
    0xFEFF] ++ List.range' 0x2000 12

theorem mem_gapCodes {c : Char} (h : (isLineEnd c || isGap c) = true) : c.toNat ∈ gapCodes := by
  simp only [isLineEnd, isGap, Bool.or_eq_true, beq_iff_eq, Bool.and_eq_true, decide_eq_true_eq]
    at h
  simp only [gapCodes, List.mem_append, List.mem_cons, List.not_mem_nil, or_false,
    List.mem_range'_1]
  rcases h with (((rfl | rfl) | rfl) | rfl) | h
  · decide
  · decide
  · decide
  · decide
  · omega

section StartsName

variable {c : Char} (h : (isNameStart c || c == '\\') = true)
include h

theorem ne_of_startsName (d : Char) (hd : (isNameStart d || d == '\\') = false) : c ≠ d := by
  rintro rfl
  rw [h] at hd
  cases hd

/-- A character with which a name starts is none of some with which none starts. -/
theorem toNat_notMem_of_startsName {codes : List Nat}
    (hcodes : ∀ n ∈ codes, (isNameStart (Char.ofNat n) || Char.ofNat n == '\\') = false) :
    c.toNat ∉ codes := fun hmem =>
  ne_of_startsName h _ (hcodes _ hmem) (Char.ofNat_toNat c).symm

theorem isDecimal_of_startsName : isDecimal c = false := by
  rw [Bool.eq_false_iff]
  intro hdecimal
  simp only [isDecimal, Bool.and_eq_true, decide_eq_true_eq, Char.le_def, UInt32.le_iff_toNat_le]
    at hdecimal
  exact toNat_notMem_of_startsName h (by decide : ∀ n ∈ List.range' 48 10, _)
    (List.mem_range'_1.2 ⟨hdecimal.1, Nat.lt_succ_of_le hdecimal.2⟩)

/-- A character with which a name starts starts no gap. -/
theorem stops_of_startsName : Stops c := by
  have hgap : (isLineEnd c || isGap c) = false := by
    rw [Bool.eq_false_iff]
    exact fun hgap => toNat_notMem_of_startsName h (by decide +kernel) (mem_gapCodes hgap)
  obtain ⟨hend, hblank⟩ := Bool.or_eq_false_iff.1 hgap
  exact ⟨hend, hblank, ne_of_startsName h _ (by decide), ne_of_startsName h _ (by decide),
    ne_of_startsName h _ (by decide)⟩

end StartsName

/-! ### The next token -/

namespace Lexer

/-- A quoted text is the next token, whatever follows it, and its value is the text. -/
theorem next_quote {lexer : Lexer} {text : String} {rest : List Char}
    (h : lexer.rest = (quote text).toList ++ rest) :
    lexer.next = lexer.emit (.string (text.toList.map .char)) rest := by
  rw [quote, String.toList_ofList, List.cons_append, List.cons_append, List.append_assoc,
    List.singleton_append] at h
  rw [next, skipGaps_of_stops _ (by decide) h]
  refine readToken_string (.inl rfl) h (Lexeme.string_escapeAll _ _ ?_ [])
  rw [h, List.length_cons, List.length_append]
  omega

/-- A text that writes a name is the next token, if what follows does not go on with it. -/
theorem next_name {lexer : Lexer} {written rest : List Char} {word : String} {escaped : Bool}
    (hspells : Lexeme.Spells written word escaped) (hrest : Lexeme.EndsName rest)
    (h : lexer.rest = written ++ rest) :
    lexer.next = lexer.emit (.name word escaped) rest := by
  obtain ⟨c, hc, hstart⟩ := hspells.start
  obtain ⟨inside, rfl⟩ := List.head?_eq_some_iff.1 hc
  rw [List.cons_append] at h
  have hread : Lexeme.name (lexer.rest.length + 1) true lexer.rest [] false =
      .done (word, escaped) rest := by
    rw [h, ← List.cons_append]
    refine Lexeme.name_append hspells.read hrest ?_
    rw [List.length_append]
    omega
  rw [next, skipGaps_of_stops _ (stops_of_startsName hstart) h]
  unfold readToken
  rw [h] at hread ⊢
  split
  next heq => cases heq
  -- Other tokens start with characters of their own.
  all_goals try
    exact absurd (List.cons.inj ‹_ :: _ = _ :: _›).1 (ne_of_startsName hstart _ (by decide))
  next d more _ _ _ _ _ _ _ heq =>
    obtain ⟨rfl, -⟩ := List.cons.inj heq
    rw [if_neg (by simp [isDecimal_of_startsName hstart]), if_pos hstart, hread]
    rfl

/-- A dot before a name is a token. -/
theorem next_dot {lexer : Lexer} {d : Char} {rest : List Char} (hd : isNameStart d = true)
    (h : lexer.rest = '.' :: d :: rest) :
    lexer.next = lexer.emit (.punct .dot) (d :: rest) := by
  have hstart : Punct.startingWith '.' = [(['.', '.', '.'], .ellipsis), (['.'], .dot)] := by decide
  have hdot : d ≠ '.' := by
    rintro rfl
    cases hd
  have hpunct : punct? ('.' :: d :: rest) = some (.dot, d :: rest) := by
    simp [punct?, hstart, List.isPrefixOf, hdot.symm]
  have hdecimal : isDecimal d = false := isDecimal_of_startsName (by rw [hd, Bool.true_or])
  rw [next, skipGaps_of_stops _ (by decide) h]
  unfold readToken
  simp only [h, hdecimal, hpunct, Bool.false_eq_true, if_false]

/-- A bracket is a token. -/
theorem next_bracket {lexer : Lexer} {rest : List Char} {c : Char} {p : Punct}
    (hc : c = '[' ∧ p = .bracketOpen ∨ c = ']' ∧ p = .bracketClose) (h : lexer.rest = c :: rest) :
    lexer.next = lexer.emit (.punct p) rest := by
  have hstops : Stops c := by rcases hc with ⟨rfl, rfl⟩ | ⟨rfl, rfl⟩ <;> decide
  have hpunct : punct? (c :: rest) = some (p, rest) := by
    have hstart : Punct.startingWith c = [([c], p)] := by
      rcases hc with ⟨rfl, rfl⟩ | ⟨rfl, rfl⟩ <;> decide
    have hp : p ≠ .questionDot := by rcases hc with ⟨rfl, rfl⟩ | ⟨rfl, rfl⟩ <;> decide
    simp [punct?, hstart, List.isPrefixOf, hp]
  rw [next, skipGaps_of_stops _ hstops h]
  unfold readToken
  rw [h]
  rcases hc with ⟨rfl, rfl⟩ | ⟨rfl, rfl⟩ <;> simp [hpunct, isDecimal, isNameStart]

end Lexer

end Bundler.Script

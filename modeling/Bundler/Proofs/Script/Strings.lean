import Bundler.Proofs.Script.Tokens
import Mathlib.Data.List.TakeWhile

/-!
# Strings end at their quotes

A string is read up to the quote that closes it. No escape in it reaches behind that quote, so the
string is the same whatever stands there.

* `Lexeme.ReadsInside`: a reader that finds the same before a quote, whatever stands behind it;
* `Lexeme.stringEscape?_inside`: escapes are read so;
* `Lexeme.exists_of_string`: a string is read up to its quote, whatever follows.
-/

namespace Bundler.Script

namespace Lexeme

variable {text rest : List Char}

/-- The marks between which strings stand. -/
def IsQuote (mark : Char) : Prop :=
  mark = '"' ∨ mark = '\''

instance (c : Char) : Decidable (IsQuote c) :=
  inferInstanceAs (Decidable (_ ∨ _))

/-- An escape by a code point is read up to its end, whatever follows, and has no quotes in it. -/
theorem unicodeEscape?_append {code : Nat} (h : unicodeEscape? text = some (code, rest)) :
    ∃ first read, text = first :: read ++ rest ∧ (∀ c ∈ first :: read, ¬IsQuote c) ∧
      ∀ other, unicodeEscape? (first :: read ++ other) = some (code, other) := by
  have hdigit : ∀ c, isDigitOf 16 c = true → ¬IsQuote c := by
    rintro c hc (rfl | rfl)
    · revert hc
      decide
    · revert hc
      decide
  unfold unicodeEscape? at h
  split at h
  next more =>
    -- Between braces the digits go on to the closing brace, so what follows is not looked at.
    dsimp only at h
    split at h
    next after hdrop =>
      split at h
      · cases h
      next hvalid =>
        cases h
        have hdigits : ∀ c ∈ more.takeWhile (isDigitOf 16), isDigitOf 16 c = true :=
          fun c hc => List.mem_takeWhile_imp hc
        have hsplit := @List.takeWhile_append_dropWhile _ (isDigitOf 16) more
        rw [hdrop] at hsplit
        refine ⟨'\x7b', more.takeWhile (isDigitOf 16) ++ ['\x7d'], ?_, ?_, ?_⟩
        · simpa using hsplit.symm
        · intro c hc
          simp only [List.mem_cons, List.mem_append, List.not_mem_nil, or_false] at hc
          rcases hc with rfl | hc | rfl
          · decide
          · exact hdigit c (hdigits c hc)
          · decide
        · intro other
          have htake : ((more.takeWhile (isDigitOf 16)) ++ '\x7d' :: other).takeWhile (isDigitOf 16) =
              more.takeWhile (isDigitOf 16) := by
            rw [List.takeWhile_append_of_pos hdigits, List.takeWhile_cons_of_neg (by decide),
              List.append_nil]
          have hleft : ((more.takeWhile (isDigitOf 16)) ++ '\x7d' :: other).dropWhile (isDigitOf 16) =
              '\x7d' :: other := by
            rw [List.dropWhile_append_of_pos hdigits, List.dropWhile_cons_of_neg (by decide)]
          rw [List.cons_append, List.append_assoc, List.cons_append, List.nil_append, unicodeEscape?,
            htake, hleft]
          exact if_neg hvalid
    · cases h
  next a b c d after _ =>
    -- Without braces there are four digits.
    split at h
    next hall =>
      cases h
      refine ⟨a, [b, c, d], rfl, ?_, fun other => ?_⟩
      · intro e he
        exact hdigit e (List.all_eq_true.1 hall e he)
      · have hopen : a ≠ '\x7b' := by
          rintro rfl
          simp [isDigitOf] at hall
        simp only [List.cons_append, List.nil_append, unicodeEscape?]
        rw [if_pos hall]
    · cases h
  · cases h

/-- What has no quotes in it and starts a text with a quote stands before the quote. -/
theorem exists_of_append_eq {mark : Char} (hmark : IsQuote mark) {inside read after other : List Char}
    (hread : ∀ c ∈ read, ¬IsQuote c) (h : inside ++ mark :: other = read ++ after) :
    ∃ left, inside = read ++ left ∧ after = left ++ mark :: other := by
  rcases List.append_eq_append_iff.1 h with ⟨left, rfl, hleft⟩ | ⟨left, rfl, hleft⟩
  · cases left with
    | nil => exact ⟨[], by simp, hleft.symm⟩
    | cons c left =>
      obtain ⟨rfl, -⟩ := List.cons.inj hleft
      exact absurd hmark (hread _ (by simp))
  · exact ⟨left, rfl, hleft⟩

/-- A reader that finds the same before a quote, whatever stands behind the quote. -/
def ReadsInside {α : Type} (mark : Char) (inside : List Char)
    (read : List Char → Option (α × List Char)) : Prop :=
  ∃ found : Option (α × List Char), ∀ other,
    read (inside ++ mark :: other) = found.map fun (value, left) => (value, left ++ mark :: other)

variable {mark : Char} (hmark : IsQuote mark)

include hmark

theorem unicodeEscape?_inside (inside : List Char) : ReadsInside mark inside unicodeEscape? := by
  have hfound {other after : List Char} {code : Nat}
      (h : unicodeEscape? (inside ++ mark :: other) = some (code, after)) :
      ∃ left, ∀ other,
        unicodeEscape? (inside ++ mark :: other) = some (code, left ++ mark :: other) := by
    obtain ⟨first, read, hsplit, hquote, hread⟩ := unicodeEscape?_append h
    obtain ⟨left, rfl, -⟩ := exists_of_append_eq hmark hquote hsplit
    refine ⟨left, fun other => ?_⟩
    rw [List.append_assoc]
    exact hread _
  -- If it is read before one text it is read before any, so it is enough to try the quote alone.
  cases h : unicodeEscape? (inside ++ [mark]) with
  | none =>
    refine ⟨none, fun other => ?_⟩
    rw [Option.map_none, Option.eq_none_iff_forall_ne_some]
    rintro ⟨code, after⟩ hsome
    obtain ⟨left, hleft⟩ := hfound hsome
    rw [hleft []] at h
    cases h
  | some found =>
    obtain ⟨code, after⟩ := found
    obtain ⟨left, hleft⟩ := hfound h
    exact ⟨some (code, left), hleft⟩

omit hmark in
/-- What follows the first half of a pair tells whether it is one. -/
theorem unicodeUnit?_eq {text : List Char} {found : Nat × List Char}
    (h : unicodeEscape? text = some found) :
    unicodeUnit? text =
      if 0xD800 ≤ found.1 ∧ found.1 < 0xDC00 ∧ text.head? ≠ some '\x7b' then
        match found.2 with
        | '\\' :: 'u' :: more =>
          match unicodeEscape? more with
          | some (low, after) =>
            if 0xDC00 ≤ low ∧ low < 0xE000 ∧ more.head? ≠ some '\x7b' then
              some (.char (Char.ofNat (0x10000 + (found.1 - 0xD800) * 0x400 + (low - 0xDC00))), after)
            else some (.lone found.1, found.2)
          | none => some (.lone found.1, found.2)
        | _ => some (.lone found.1, found.2)
      else some (unitOf found.1, found.2) := by
  unfold unicodeUnit?
  rw [h]
  rfl

theorem unicodeUnit?_inside (inside : List Char) : ReadsInside mark inside unicodeUnit? := by
  obtain ⟨found, hfound⟩ := unicodeEscape?_inside hmark inside
  have hhead (inside other : List Char) :
      (inside ++ mark :: other).head? = (inside ++ [mark]).head? := by
    cases inside <;> rfl
  cases found with
  | none =>
    refine ⟨none, fun other => ?_⟩
    unfold unicodeUnit?
    rw [hfound]
    rfl
  | some found =>
    obtain ⟨code, left⟩ := found
    have hunit (other : List Char) := unicodeUnit?_eq (hfound other)
    simp only [hhead inside] at hunit
    -- A high half looks for its low half, which is an escape before the quote again.
    by_cases hhigh : 0xD800 ≤ code ∧ code < 0xDC00 ∧ (inside ++ [mark]).head? ≠ some '\x7b'
    · simp only [if_pos hhigh] at hunit
      by_cases hpair : ∃ more, left = '\\' :: 'u' :: more
      · obtain ⟨more, rfl⟩ := hpair
        obtain ⟨low, hlow⟩ := unicodeEscape?_inside hmark more
        simp only [List.cons_append, hlow, hhead more] at hunit
        cases low with
        | none => exact ⟨some (.lone code, '\\' :: 'u' :: more), hunit⟩
        | some low =>
          obtain ⟨low, after⟩ := low
          simp only [Option.map_some] at hunit
          by_cases hvalid : 0xDC00 ≤ low ∧ low < 0xE000 ∧ (more ++ [mark]).head? ≠ some '\x7b'
          · simp only [if_pos hvalid] at hunit
            exact ⟨some (_, after), hunit⟩
          · simp only [if_neg hvalid] at hunit
            exact ⟨some (.lone code, '\\' :: 'u' :: more), hunit⟩
      · refine ⟨some (.lone code, left), fun other => ?_⟩
        rw [hunit]
        split
        next more heq =>
          -- The quote is neither of the characters of an escape.
          have hnot : ∀ c, c = '\\' ∨ c = 'u' → mark ≠ c := by
            rintro c (rfl | rfl) rfl <;> revert hmark <;> decide
          rcases left with _ | ⟨c, _ | ⟨d, left⟩⟩
          · exact absurd (List.cons.inj heq).1 (hnot _ (.inl rfl))
          · exact absurd (List.cons.inj (List.cons.inj heq).2).1 (hnot _ (.inr rfl))
          · obtain ⟨rfl, hmore⟩ := List.cons.inj heq
            obtain ⟨rfl, -⟩ := List.cons.inj hmore
            exact absurd ⟨left, rfl⟩ hpair
        · rfl
    · simp only [if_neg hhigh] at hunit
      exact ⟨some (unitOf code, left), hunit⟩

theorem octalDigits_inside (c : Char) (inside other : List Char) :
    octalDigits (c :: inside ++ mark :: other) = octalDigits (c :: inside ++ [mark]) := by
  have hdigit : isDigitOf 8 mark = false := by
    rcases hmark with rfl | rfl <;> decide
  match inside with
  | [] => cases other <;> simp [octalDigits, hdigit]
  | [d] => cases other <;> simp [octalDigits, hdigit]
  | d :: e :: inside => rfl

theorem length_octalDigits_le (c : Char) (inside : List Char) :
    (octalDigits (c :: inside ++ [mark])).length ≤ inside.length + 1 := by
  have hdigit : isDigitOf 8 mark = false := by
    rcases hmark with rfl | rfl <;> decide
  match inside with
  | [] => simp [octalDigits, hdigit]
  | [d] =>
    simp only [octalDigits, hdigit, List.cons_append, List.nil_append]
    split <;> simp
  | d :: e :: inside =>
    simp only [octalDigits, List.cons_append]
    split
    · split <;> simp
    · simp

theorem stringEscape?_inside (c : Char) (inside : List Char) :
    ReadsInside mark (c :: inside) stringEscape? := by
  have hdigit : isDigitOf 16 mark = false := by
    rcases hmark with rfl | rfl <;> decide
  have hline : mark ≠ '\n' := by
    rintro rfl
    revert hmark
    decide
  by_cases hletter : c ∈ ['n', 't', 'r', 'b', 'f', 'v']
  · simp only [List.mem_cons, List.not_mem_nil, or_false] at hletter
    rcases hletter with rfl | rfl | rfl | rfl | rfl | rfl
    all_goals exact ⟨some (_, inside), fun _ => rfl⟩
  by_cases hunicode : c = 'u'
  · subst hunicode
    obtain ⟨found, hfound⟩ := unicodeUnit?_inside hmark inside
    refine ⟨found.map (Prod.map some id), fun other => ?_⟩
    rw [List.cons_append, stringEscape?, hfound]
    cases found <;> rfl
  by_cases hhex : c = 'x'
  · subst hhex
    rcases inside with _ | ⟨a, _ | ⟨b, inside⟩⟩
    · refine ⟨none, fun other => ?_⟩
      cases other <;> simp [stringEscape?, hdigit]
    · refine ⟨none, fun other => ?_⟩
      simp [stringEscape?, hdigit]
    · by_cases hall : (isDigitOf 16 a && isDigitOf 16 b) = true
      · exact ⟨some (some (unitOf (hexNumber [a, b])), inside), fun other => if_pos hall⟩
      · exact ⟨none, fun other => if_neg hall⟩
  by_cases hreturn : ∃ more, c = '\r' ∧ inside = '\n' :: more
  · obtain ⟨more, rfl, rfl⟩ := hreturn
    exact ⟨some (none, more), fun other => rfl⟩
  -- Any other escape is the end of a line, an octal number or the character itself.
  have hrest (other : List Char) : stringEscape? (c :: inside ++ mark :: other) =
      if isLineEnd c then some (none, inside ++ mark :: other)
      else if isDigitOf 8 c then
        let digits := octalDigits (c :: inside ++ mark :: other)
        let code := digits.foldl (fun n d => n * 8 + digitValue d) 0
        some (some (.char (Char.ofNat code)), (c :: inside ++ mark :: other).drop digits.length)
      else some (some (.char c), inside ++ mark :: other) := by
    have hbreak : ∀ rest, c = '\r' → inside ++ mark :: other = '\n' :: rest → False := by
      rintro rest rfl heq
      cases inside with
      | nil => exact hline (List.cons.inj heq).1
      | cons d inside => exact hreturn ⟨inside, rfl, by rw [(List.cons.inj heq).1]⟩
    simp only [List.mem_cons, List.not_mem_nil, or_false, not_or] at hletter
    rw [List.cons_append, stringEscape?]
    case x_6 => exact hbreak
    all_goals simp [hletter, hunicode, hhex]
  by_cases hend : isLineEnd c = true
  · simp only [if_pos hend] at hrest
    exact ⟨some (none, inside), hrest⟩
  by_cases hoctal : isDigitOf 8 c = true
  · simp only [if_neg hend, if_pos hoctal, octalDigits_inside hmark c inside] at hrest
    have hle := length_octalDigits_le hmark c inside
    generalize octalDigits (c :: inside ++ [mark]) = digits at hrest hle
    refine ⟨some (some (.char (Char.ofNat (digits.foldl (fun n d => n * 8 + digitValue d) 0))),
      (c :: inside).drop digits.length), fun other => ?_⟩
    rw [hrest, List.drop_append_of_le_length hle]
    rfl
  · simp only [if_neg hend, if_neg hoctal] at hrest
    exact ⟨some (some (.char c), inside), hrest⟩

/-- An escape in a string is the same, whatever follows the string. -/
theorem stringEscape?_append {unit : Option StringUnit} {inside : List Char}
    (h : stringEscape? text = some (unit, inside ++ mark :: rest)) :
    ∃ read, text = read ++ (inside ++ mark :: rest) ∧ ∀ other,
      stringEscape? (read ++ (inside ++ mark :: other)) = some (unit, inside ++ mark :: other) := by
  obtain ⟨read, rfl⟩ := suffix_of_stringEscape? h
  refine ⟨read, rfl, fun other => ?_⟩
  rw [← List.append_assoc] at h ⊢
  generalize hwhole : read ++ inside = whole at h ⊢
  cases whole with
  | nil =>
    -- An escaped quote is taken itself.
    obtain ⟨rfl, rfl⟩ := List.append_eq_nil_iff.1 hwhole
    have hquote : stringEscape? (mark :: rest) = some (some (.char mark), rest) := by
      rcases hmark with rfl | rfl <;> rfl
    have hlength := congrArg List.length
      (Prod.mk.inj (Option.some.inj (hquote.symm.trans h))).2
    simp at hlength
  | cons c whole =>
    obtain ⟨found, hfound⟩ := stringEscape?_inside hmark c whole
    rw [hfound] at h ⊢
    cases found with
    | none => cases h
    | some found =>
      obtain ⟨value, left⟩ := found
      obtain ⟨rfl, hleft⟩ := Prod.mk.inj (Option.some.inj h)
      rw [List.append_left_inj] at hleft
      rw [hleft]
      rfl

/-- A string is read up to its closing quote, whatever follows. -/
theorem exists_of_string {fuel : Nat} {units : List StringUnit} {value : StringValue}
    (h : string mark fuel text units = .done value rest) : ∃ inside, text = inside ++ mark :: rest ∧
      ∀ (other : List Char) (fuel : Nat), inside.length < fuel →
        string mark fuel (inside ++ mark :: other) units = .done value other := by
  -- The induction is on the characters read. The fuel of another reading only has to cover them.
  induction fuel generalizing text units with
  | zero => cases h
  | succ fuel ih =>
    cases text with
    | nil => cases h
    | cons c text =>
      rw [string] at h
      by_cases hclose : c = mark
      · rw [if_pos hclose] at h
        cases h
        refine ⟨[], by rw [hclose]; rfl, fun other fuel hfuel => ?_⟩
        obtain ⟨fuel, rfl⟩ := Nat.exists_eq_add_one_of_ne_zero (Nat.ne_of_gt hfuel)
        exact if_pos rfl
      rw [if_neg hclose] at h
      by_cases hend : c = '\n' ∨ c = '\r'
      · rw [if_pos hend] at h
        cases h
      rw [if_neg hend] at h
      by_cases hescape : c = '\\'
      · rw [if_pos hescape] at h
        cases hunit : stringEscape? text with
        | none =>
          rw [hunit] at h
          dsimp only at h
          split at h <;> cases h
        | some found =>
          obtain ⟨unit, after⟩ := found
          rw [hunit] at h
          have hmore : string mark fuel after (unit.toList ++ units) = .done value rest := by
            cases unit <;> exact h
          obtain ⟨inside, rfl, hread⟩ := ih hmore
          obtain ⟨read, rfl, hescaped⟩ := stringEscape?_append hmark hunit
          refine ⟨c :: (read ++ inside), by simp, fun other fuel hfuel => ?_⟩
          obtain ⟨fuel, rfl⟩ :=
            Nat.exists_eq_add_one_of_ne_zero (Nat.ne_of_gt (Nat.zero_lt_of_lt hfuel))
          have hshort : inside.length < fuel := by
            simp only [List.length_cons, List.length_append] at hfuel
            omega
          rw [List.cons_append, string, if_neg hclose, if_neg hend, if_pos hescape,
            List.append_assoc, hescaped]
          cases unit <;> exact hread other fuel hshort
      · rw [if_neg hescape] at h
        obtain ⟨inside, rfl, hread⟩ := ih h
        refine ⟨c :: inside, rfl, fun other fuel hfuel => ?_⟩
        obtain ⟨fuel, rfl⟩ :=
          Nat.exists_eq_add_one_of_ne_zero (Nat.ne_of_gt (Nat.zero_lt_of_lt hfuel))
        rw [List.cons_append, string, if_neg hclose, if_neg hend, if_neg hescape]
        exact hread other fuel (Nat.lt_of_succ_lt_succ hfuel)

end Lexeme

end Bundler.Script

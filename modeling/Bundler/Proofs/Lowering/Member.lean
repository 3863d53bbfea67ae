import Bundler.Proofs.Lowering.FreshName
import Bundler.Proofs.Script.Access

/-!
# Properties by any name

An export may be called anything. What is written for it behind the variable that holds a module is
a name behind a dot, if it is called by a name in plain letters, and a quoted text in brackets
otherwise. A reader takes either for the property of that name, and it takes a quoted text for that
text, whatever stands behind it.

* `asks_memberOf`: what is written for a property asks for it;
* `quote_memberOf_read`: what readers make of both.
-/

namespace Bundler

open Script Script.Parser

/-- The characters of a text are a value that is written as it. -/
theorem Script.StringValue.toText_chars (text : String) :
    StringValue.toText (text.toList.map .char) = text := by
  have htext : StringValue.isText (text.toList.map .char) = true := by
    simp [StringValue.isText]
  rw [StringValue.toText, if_pos htext, List.filterMap_map]
  simp

namespace Lowering

/-! ### Names in plain letters -/

theorem toNat_lt_of_isAlphanum {c : Char} (h : c.isAlphanum = true) : c.toNat < 128 := by
  simp only [Char.isAlphanum, Char.isAlpha, Char.isUpper, Char.isLower, Char.isDigit,
    Bool.or_eq_true, Bool.and_eq_true, decide_eq_true_eq, ge_iff_le, UInt32.le_iff_toNat_le] at h
  have hupper : 'Z'.val.toNat = 90 := rfl
  have hlower : 'z'.val.toNat = 122 := rfl
  have hdigit : '9'.val.toNat = 57 := rfl
  show c.val.toNat < 128
  omega

theorem isNameStart_of_startsName {c : Char} (h : startsName c = true) : isNameStart c = true := by
  simp only [startsName, Bool.or_eq_true, beq_iff_eq] at h
  rcases h with (h | rfl) | rfl
  · rw [isNameStart, if_pos (toNat_lt_of_isAlphanum (by rw [Char.isAlphanum, h]; rfl)), h]
    rfl
  · decide
  · decide

theorem isNamePart_of_continuesName {c : Char} (h : continuesName c = true) :
    isNamePart c = true := by
  rcases Bool.or_eq_true_iff.1 h with h | h
  · exact Lexeme.isNamePart_of_isNameStart (isNameStart_of_startsName h)
  · have halnum : c.isAlphanum = true := by rw [Char.isAlphanum, h, Bool.or_true]
    rw [isNamePart, if_pos (toNat_lt_of_isAlphanum halnum), halnum]
    rfl

/-! ### Properties -/

/-- What is written for a property asks for it, if what follows does not go on with its name. -/
theorem asks_memberOf {key : String} {rest : List Char}
    (hrest : isPlainName key = true → Lexeme.EndsName rest) :
    Asks (memberOf key).toList (key.toList.map .char) rest := by
  unfold memberOf
  split_ifs with hplain
  · obtain ⟨c, inside, hkey, hstart, hinside⟩ := isPlainName_iff.1 hplain
    rw [String.toList_append]
    exact asks_dot hkey (isNameStart_of_startsName hstart)
      (fun d hd => isNamePart_of_continuesName (hinside d hd)) (hrest hplain)
  · rw [String.toList_append, String.toList_append]
    exact asks_bracket key rest

/-- A quoted text stands on one line, and whatever follows it, the next token is a string that is
    written as the quoted text and whose value is the text; it may stand in strict code. What is
    written for a property of that name asks for it, whatever the name is, if what follows does not
    go on with the name. -/
theorem quote_memberOf_read (text : String) :
    StringValue.toText (text.toList.map .char) = text ∧
      (∀ c ∈ (Text.quote text).toList, c ≠ '\n' ∧ c ≠ '\r') ∧
      (∀ (lexer : Lexer) (rest : List Char), lexer.rest = (Text.quote text).toList ++ rest →
        lexer.next = lexer.emit (.string (text.toList.map .char)) rest ∧
          lexer.next.1.written = (Text.quote text).toList) ∧
      Lexeme.hasLegacyEscape (Text.quote text).toList = false ∧
      ∀ rest : List Char, (isPlainName text = true → Lexeme.EndsName rest) →
        Asks (memberOf text).toList (text.toList.map .char) rest := by
  refine ⟨StringValue.toText_chars text, Text.quote_noLineEnd text, fun lexer rest hrest => ?_,
    Lexeme.hasLegacyEscape_quote text, fun rest => asks_memberOf⟩
  have hnext := Lexer.next_quote hrest
  exact ⟨hnext, hnext ▸ Lexer.written_emit _ _ hrest⟩

/-- A keyword is quoted as any other text, and behind a dot it is the name of a property. -/
theorem quote_memberOf_read_default :
    (Lexer.start .module (Text.quote "default" ++ ";").toList).next.1.kind =
        .string ("default".toList.map .char) ∧
      ∃ access behind, access? access = some (⟨"_a", ⟨0, 2⟩⟩, "default".toList.map .char) ∧
        operand (run 1) true (topContext .module)
          (startState (Lexer.start .module ("_a" ++ memberOf "default" ++ ";").toList)) =
            .ok access behind := by
  obtain ⟨-, -, hquote, -, hmember⟩ := quote_memberOf_read "default"
  have hname : Lexeme.Spells "_a".toList "_a" false :=
    Lexeme.spells_of_parts (rfl : "_a".toList = '_' :: ['a']) (by decide)
      (List.forall_mem_singleton.2 (by decide))
  obtain ⟨access, behind, after, haccess, -, hstands, hrest, -, -, -, -, halone⟩ :=
    hmember [';'] (fun _ => endsName_cons (by decide) (by decide) []) "_a".toList "_a" false
      (Lexer.start .module ("_a" ++ memberOf "default" ++ ";").toList)
      (startState (Lexer.start .module ("_a" ++ memberOf "default" ++ ";").toList))
      (topContext .module) 0 hname (by decide) (by decide) (by decide) rfl
  refine ⟨?_, access, behind, haccess.trans (by decide), halone ?_⟩
  · rw [(hquote _ [';'] (by decide)).1]
    rfl
  · have hsemicolon := (Lexer.next_semicolon .nil hrest).1
    rw [hstands] at hsemicolon
    rw [hsemicolon]
    rfl

end Lowering

end Bundler

import Bundler.Proofs.Text.Offset
import Bundler.Script.Lexer

/-!
# Where tokens stand

Tokens come in the order in which they are written, each at a place between two characters, and a
name takes at least a byte. Nothing is said about what a token is: a token that is malformed stands
somewhere too.

* `Lexeme.GoesOn`: a reading that goes on with what is left of a text;
* `Lexer.Gives`: a token and the lexer after it, as they follow a lexer;
* `Lexer.next_gives`: the next token stands where the lexer is, or further on;
* `Lexer.asRegex_gives`, `Lexer.asTemplate_gives`: a second reading of a token starts where the
  first one did.
-/

namespace Bundler

namespace Script

/-- A token stands somewhere, and if it is a name or a string it takes something. -/
structure Token.Placed (token : Token) : Prop where
  /-- A token ends where it starts, or later. -/
  start_le : token.span.start ≤ token.span.stop
  /-- A name has characters. -/
  name_lt : ∀ text escaped, token.kind = .name text escaped → token.span.start < token.span.stop
  /-- A string has quotes. -/
  string_lt : ∀ value, token.kind = .string value → token.span.start < token.span.stop

/-- Whether a token of a kind takes something for sure. -/
def TokenKind.Takes (kind : TokenKind) : Prop :=
  (∃ text escaped, kind = .name text escaped) ∨ (∃ value, kind = .string value) ∨
    ∃ p, kind = .punct p

namespace Lexeme

variable {text rest : List Char}

attribute [local grind =] List.suffix_cons_iff
attribute [local grind .] List.drop_suffix

theorem suffix_of_unicodeEscape? {code : Nat} (h : unicodeEscape? text = some (code, rest)) :
    rest <:+ text := by
  unfold unicodeEscape? at h
  split at h
  next more =>
    have hsuffix := List.dropWhile_suffix (l := more) (isDigitOf 16)
    dsimp only at h
    split at h
    next after hd =>
      rw [hd] at hsuffix
      split at h
      · cases h
      · obtain ⟨-, rfl⟩ := Prod.mk.inj (Option.some.inj h)
        exact ((List.suffix_cons _ _).trans hsuffix).trans (List.suffix_cons _ _)
    · cases h
  all_goals grind

theorem suffix_of_unicodeUnit? {unit : StringUnit} (h : unicodeUnit? text = some (unit, rest)) :
    rest <:+ text := by
  unfold unicodeUnit? at h
  obtain ⟨⟨code, after⟩, hc, h⟩ := Option.bind_eq_some_iff.1 h
  have hafter := suffix_of_unicodeEscape? hc
  dsimp only at h
  split at h
  · split at h
    next more =>
      split at h
      next low last hl =>
        split at h
        · obtain ⟨-, rfl⟩ := Prod.mk.inj (Option.some.inj h)
          have hmore := (List.suffix_cons 'u' more).trans (List.suffix_cons '\\' _)
          exact (suffix_of_unicodeEscape? hl).trans (hmore.trans hafter)
        · obtain ⟨-, rfl⟩ := Prod.mk.inj (Option.some.inj h)
          exact hafter
      next =>
        obtain ⟨-, rfl⟩ := Prod.mk.inj (Option.some.inj h)
        exact hafter
    next =>
      obtain ⟨-, rfl⟩ := Prod.mk.inj (Option.some.inj h)
      exact hafter
  · obtain ⟨-, rfl⟩ := Prod.mk.inj (Option.some.inj h)
    exact hafter

theorem suffix_of_stringEscape? {unit : Option StringUnit}
    (h : stringEscape? text = some (unit, rest)) : rest <:+ text := by
  unfold stringEscape? at h
  split at h
  case h_11 =>
    obtain ⟨⟨unit, after⟩, hu, h⟩ := Option.map_eq_some_iff.1 h
    obtain ⟨-, rfl⟩ := Prod.mk.inj h
    exact (suffix_of_unicodeUnit? hu).trans (List.suffix_cons _ _)
  all_goals grind

/-- What follows a string is left of what follows its opening quote. -/
theorem suffix_of_string {mark : Char} {fuel : Nat} {units : List StringUnit} {value : StringValue}
    (h : string mark fuel text units = .done value rest) : rest <:+ text := by
  fun_induction string mark fuel text units
  all_goals grind [→ suffix_of_stringEscape?]

theorem suffix_of_name {fuel : Nat} {first escaped : Bool} {read : List Char}
    {value : String × Bool} (h : name fuel first text read escaped = .done value rest) :
    rest <:+ text := by
  fun_induction name fuel first text read escaped
  all_goals grind [→ suffix_of_unicodeEscape?]

/-- A name that starts with a character takes it. -/
theorem length_of_name_lt {fuel : Nat} {escaped : Bool} {c : Char} {read : List Char}
    {value : String × Bool} (hc : c ∈ text.head?) (hs : (isNameStart c || c == '\\') = true)
    (h : name fuel true text read escaped = .done value rest) : rest.length < text.length := by
  generalize hfirst : true = first at h
  fun_induction name fuel first text read escaped
  case case2 hu _ _ =>
    have := (suffix_of_unicodeEscape? hu).length_le
    have := (suffix_of_name h).length_le
    simp only [List.length_cons]
    omega
  case case6 =>
    have := (suffix_of_name h).length_le
    simp only [List.length_cons]
    omega
  case case7 =>
    rename_i c' _ _ hback hfits
    obtain rfl : c' = c := by simpa using hc
    subst hfirst
    rcases Bool.or_eq_true _ _ ▸ hs with hs | hs
    · exact absurd hs hfits
    · exact absurd (by simpa using hs) hback
  case case8 => cases hc
  all_goals cases h

theorem suffix_of_digits? {base : Nat} (h : digits? base text = some rest) : rest <:+ text := by
  fun_induction digits? base text
  all_goals grind

theorem suffix_of_someDigits? {base : Nat} (h : someDigits? base text = some rest) :
    rest <:+ text := by
  unfold someDigits? at h
  grind [→ suffix_of_digits?]

theorem suffix_of_anyDigits? {base : Nat} (h : anyDigits? base text = some rest) :
    rest <:+ text := by
  unfold anyDigits? at h
  grind [→ suffix_of_digits?]

theorem suffix_of_exponent? (h : exponent? text = some rest) : rest <:+ text := by
  unfold exponent? at h
  grind [→ suffix_of_someDigits?]

theorem suffix_of_afterPoint? (h : afterPoint? text = some rest) : rest <:+ text := by
  obtain ⟨after, hdigits, hexponent⟩ := Option.bind_eq_some_iff.1 h
  exact (suffix_of_exponent? hexponent).trans (suffix_of_anyDigits? hdigits)

/-- A reading that, if it gives something, goes on somewhere in a text. -/
def GoesOn {α : Type} (text : List Char) (reading : Reading α) : Prop :=
  ∀ value rest, reading = .done value rest → rest <:+ text

theorem goesOn_bad {α : Type} (text at' : List Char) : GoesOn text (.bad at' : Reading α) :=
  fun _ _ h => nomatch h

theorem goesOn_numberEnd {kind : TokenKind} (h : rest <:+ text) :
    GoesOn text (numberEnd kind rest) := by
  intro value after hread
  unfold numberEnd at hread
  grind

theorem goesOn_integerEnd (h : rest <:+ text) : GoesOn text (integerEnd rest) := by
  unfold integerEnd
  split
  · exact goesOn_numberEnd ((List.suffix_cons _ _).trans h)
  · exact goesOn_numberEnd h

theorem goesOn_finishNumber {whole : List Char} {part : Option (List Char)}
    (h : ∀ rest, part = some rest → rest <:+ text) : GoesOn text (finishNumber whole part) := by
  unfold finishNumber
  split
  · exact goesOn_numberEnd (h _ rfl)
  · exact goesOn_bad _ _

/-- What follows a number is left of what it starts. -/
theorem goesOn_number (text : List Char) : GoesOn text (number text) := by
  unfold number
  dsimp only
  have hdrop (c : Char) (more : List Char) :=
    (List.dropWhile_suffix (l := c :: more) isDecimal)
  repeat' split
  all_goals first
    | exact goesOn_bad _ _
    | refine goesOn_integerEnd ?_; grind [→ suffix_of_someDigits?]
    | refine goesOn_numberEnd ?_; grind [→ suffix_of_someDigits?]
    | refine goesOn_finishNumber fun rest h => ?_
      grind [→ suffix_of_someDigits?, → suffix_of_exponent?, → suffix_of_afterPoint?,
        Option.bind_eq_some_iff]

theorem goesOn_regexBody (inClass : Bool) (text : List Char) :
    GoesOn text (regexBody inClass text) := by
  intro value rest h
  fun_induction regexBody inClass text
  all_goals grind

theorem regexBody_ne_bad (inClass : Bool) (text rest : List Char) :
    regexBody inClass text ≠ .bad rest := by
  fun_induction regexBody inClass text
  all_goals grind

theorem goesOn_template (text : List Char) (valid : Bool) : GoesOn text (template text valid) := by
  intro value rest h
  fun_induction template text valid
  all_goals grind

theorem append_of_blockComment? {comment : List Char}
    (h : blockComment? text = some (comment, rest)) : text = comment ++ rest := by
  fun_induction blockComment? text generalizing comment with
  | case1 rest =>
    cases h
    rfl
  | case2 c more _ ih =>
    obtain ⟨⟨inner, after⟩, hmore, h⟩ := Option.map_eq_some_iff.1 h
    cases h
    exact congrArg (c :: ·) (ih hmore)
  | case3 => cases h

/-- A reading that gives no name, no string and no punctuator. -/
def Nameless (reading : Reading TokenKind) : Prop :=
  ∀ kind rest, reading = .done kind rest → ¬kind.Takes

theorem nameless_bad (text : List Char) : Nameless (.bad text) :=
  fun _ _ h => nomatch h

theorem nameless_numberEnd {kind : TokenKind} (hk : ¬kind.Takes)
    (text : List Char) : Nameless (numberEnd kind text) := by
  intro kind' rest h
  unfold numberEnd at h
  split at h
  · split at h
    · cases h
    · cases h
      exact hk
  · cases h
    exact hk

theorem nameless_integerEnd (text : List Char) : Nameless (integerEnd text) := by
  unfold integerEnd
  split
  · exact nameless_numberEnd (by simp [TokenKind.Takes]) _
  · exact nameless_numberEnd (by simp [TokenKind.Takes]) _

theorem nameless_finishNumber (text : List Char) (part : Option (List Char)) :
    Nameless (finishNumber text part) := by
  unfold finishNumber
  split
  · exact nameless_numberEnd (by simp [TokenKind.Takes]) _
  · exact nameless_bad _

/-- A number is no name. -/
theorem nameless_number (text : List Char) : Nameless (number text) := by
  unfold number
  dsimp only
  repeat' split
  all_goals first
    | exact nameless_bad _
    | exact nameless_integerEnd _
    | exact nameless_finishNumber _ _
    | exact nameless_numberEnd (by simp [TokenKind.Takes]) _

end Lexeme

namespace Lexer

/-- A lexer comes to another one, behind some of what is left. -/
def Comes (lexer after : Lexer) : Prop :=
  Text.Goes lexer.offset lexer.rest after.offset after.rest

/-- A token and the lexer after it, as they follow a lexer. -/
structure Gives (lexer : Lexer) (token : Token) (after : Lexer) : Prop where
  /-- The token stands where the lexer is, or further on. -/
  starts : Text.Goes lexer.offset lexer.rest token.span.start token.source
  /-- What is left stands behind the token. -/
  stops : Text.Goes token.span.start token.source token.span.stop after.rest
  /-- The token stands somewhere. -/
  placed : token.Placed
  /-- A punctuator takes something. -/
  punct_lt : ∀ p, token.kind = .punct p → token.span.start < token.span.stop
  /-- The lexer goes on after the token. -/
  stop_eq : after.offset = token.span.stop

theorem Gives.offset_le {lexer after : Lexer} {token : Token} (h : lexer.Gives token after) :
    lexer.offset ≤ token.span.start :=
  h.starts.le

theorem Gives.mono {lexer lexer' after : Lexer} {token : Token} (h : lexer.Gives token after)
    (hl : lexer'.Comes lexer) : lexer'.Gives token after :=
  ⟨hl.trans h.starts, h.stops, h.placed, h.punct_lt, h.stop_eq⟩

theorem le_offsetOf (lexer : Lexer) (rest : List Char) : lexer.offset ≤ lexer.offsetOf rest :=
  Nat.le_add_right _ _

theorem lt_offsetOf {lexer : Lexer} {rest : List Char} (h : rest.length < lexer.rest.length) :
    lexer.offset < lexer.offsetOf rest := by
  refine Nat.lt_add_of_pos_right (Text.byteLength_pos ?_)
  intro hnil
  have := congrArg List.length hnil
  rw [List.length_take, List.length_nil] at this
  omega

theorem goes_offsetOf {lexer : Lexer} {rest : List Char} (h : rest <:+ lexer.rest) :
    Text.Goes lexer.offset lexer.rest (lexer.offsetOf rest) rest := by
  obtain ⟨read, hread⟩ := h
  refine ⟨read, hread.symm, ?_⟩
  rw [offsetOf, ← hread, List.length_append, Nat.add_sub_cancel, List.take_left]

/-- A token that is no name, no string and no punctuator may take nothing. -/
theorem emit_gives {lexer : Lexer} {kind : TokenKind} {rest : List Char} (hrest : rest <:+ lexer.rest)
    (h : kind.Takes → rest.length < lexer.rest.length) :
    lexer.Gives (lexer.emit kind rest).1 (lexer.emit kind rest).2 where
  starts := .refl _ _
  stops := goes_offsetOf hrest
  placed :=
    { start_le := lexer.le_offsetOf rest
      name_lt := fun text escaped hk => lt_offsetOf (h (.inl ⟨text, escaped, hk⟩))
      string_lt := fun value hk => lt_offsetOf (h (.inr (.inl ⟨value, hk⟩))) }
  punct_lt := fun p hk => lt_offsetOf (h (.inr (.inr ⟨p, hk⟩)))
  stop_eq := rfl

theorem emit_gives_of_not {lexer : Lexer} {kind : TokenKind} {rest : List Char}
    (hrest : rest <:+ lexer.rest) (h : ¬kind.Takes := by simp [TokenKind.Takes]) :
    lexer.Gives (lexer.emit kind rest).1 (lexer.emit kind rest).2 :=
  emit_gives hrest fun hk => absurd hk h

/-- A token that is malformed takes all that is left. -/
theorem bad_gives (lexer : Lexer) (offset : Nat) (text : String) :
    lexer.Gives ((lexer.complain offset text).emit .bad []).1
      ((lexer.complain offset text).emit .bad []).2 :=
  Gives.mono (emit_gives_of_not (List.nil_suffix)) (.refl _ _)

theorem settle_gives {α : Type} {lexer : Lexer} {kind : α → TokenKind}
    {reading : Lexeme.Reading α} (hrest : Lexeme.GoesOn lexer.rest reading)
    (h : ∀ value rest, reading = .done value rest → (kind value).Takes →
      rest.length < lexer.rest.length) :
    lexer.Gives (lexer.settle kind reading).1 (lexer.settle kind reading).2 := by
  cases reading with
  | done value rest => exact emit_gives (hrest value rest rfl) (h value rest rfl)
  | bad rest => exact bad_gives _ _ _
  | endless => exact bad_gives _ _ _

/-- A punctuator is written with some characters. -/
theorem exists_of_punct? {text rest : List Char} {p : Punct} (h : punct? text = some (p, rest)) :
    rest <:+ text ∧ rest.length < text.length := by
  have hdrop (n : Nat) (hn : 0 < n) (htext : 0 < text.length) :
      text.drop n <:+ text ∧ (text.drop n).length < text.length := by
    refine ⟨List.drop_suffix _ _, ?_⟩
    rw [List.length_drop]
    omega
  unfold punct? at h
  split at h
  · cases h
  next c more =>
    split at h
    · cases h
    next spelling _ hfind =>
      -- A spelling starts with the character, so it has one.
      have hhead := eq_of_beq (List.mem_filter.1 (List.mem_of_find?_eq_some hfind)).2
      have hpos : 0 < spelling.length := List.length_pos_of_ne_nil fun hnil => by
        rw [hnil] at hhead
        cases hhead
      dsimp only at h
      split at h
      · cases h
        exact hdrop 1 Nat.one_pos (Nat.succ_pos _)
      · cases h
        exact hdrop _ hpos (Nat.succ_pos _)

/-- The token of a punctuator, or of what is none. -/
theorem punct_gives (lexer : Lexer) {bad : Lexer} (h : lexer.Comes bad) :
    lexer.Gives
      (match punct? lexer.rest with
        | some (p, rest) => lexer.emit (.punct p) rest
        | none => bad.emit .bad []).1
      (match punct? lexer.rest with
        | some (p, rest) => lexer.emit (.punct p) rest
        | none => bad.emit .bad []).2 := by
  split
  next hp =>
    obtain ⟨hrest, hlt⟩ := exists_of_punct? hp
    exact emit_gives hrest fun _ => hlt
  · exact Gives.mono (emit_gives_of_not List.nil_suffix) h

/-- A private name is read behind its sign. -/
theorem goesOn_privateName {fuel : Nat} {rest : List Char} :
    Lexeme.GoesOn ('#' :: rest) (match Lexeme.name fuel true rest [] false with
      | .done ("", _) rest => .bad rest
      | reading => reading) := by
  intro value after h
  split at h
  · cases h
  · exact (Lexeme.suffix_of_name h).trans (List.suffix_cons _ _)

theorem string_gives {lexer : Lexer} {mark : Char} {rest : List Char} {fuel : Nat}
    (hrest : lexer.rest = mark :: rest) :
    lexer.Gives (lexer.settle .string (Lexeme.string mark fuel rest [])).1
      (lexer.settle .string (Lexeme.string mark fuel rest [])).2 := by
  refine settle_gives (fun value rest hread => ?_) fun value rest hread _ => ?_
  · rw [hrest]
    exact (Lexeme.suffix_of_string hread).trans (List.suffix_cons _ _)
  · rw [hrest]
    exact Nat.lt_succ_of_le (Lexeme.suffix_of_string hread).length_le

theorem readToken_gives (lexer : Lexer) :
    lexer.Gives lexer.readToken.1 lexer.readToken.2 := by
  have hnumber := Lexeme.goesOn_number lexer.rest
  unfold readToken
  dsimp only
  -- The first character tells what kind of token it is.
  split
  · exact emit_gives_of_not List.nil_suffix
  next hrest => exact string_gives hrest
  next hrest => exact string_gives hrest
  next hrest =>
    refine settle_gives (fun value rest hread => ?_) fun _ _ _ hk =>
      absurd hk (by simp [TokenKind.Takes])
    rw [hrest]
    exact (Lexeme.goesOn_template _ _ value rest hread).trans (List.suffix_cons _ _)
  next hrest =>
    exact settle_gives (hrest ▸ goesOn_privateName) fun _ _ _ hk =>
      absurd hk (by simp [TokenKind.Takes])
  · split
    · exact settle_gives hnumber fun kind rest hread hk =>
        absurd hk (Lexeme.nameless_number _ kind rest hread)
    · exact punct_gives lexer (.refl _ _)
  · exact bad_gives _ _ _
  · exact bad_gives _ _ _
  next c more _ _ _ _ _ _ _ hrest =>
    split
    · exact settle_gives hnumber fun kind rest hread hk =>
        absurd hk (Lexeme.nameless_number _ kind rest hread)
    · split
      next hs =>
        refine settle_gives (fun value rest hread => Lexeme.suffix_of_name hread)
          fun value rest hread _ => ?_
        exact Lexeme.length_of_name_lt (by rw [hrest]; rfl) hs hread
      next => exact punct_gives lexer (.refl _ _)

theorem comes_skip (lexer : Lexer) {read rest : List Char} (h : lexer.rest = read ++ rest) :
    lexer.Comes (lexer.skip read rest) :=
  ⟨read, h, rfl⟩

theorem comes_lineComment (lexer : Lexer) : lexer.Comes lexer.lineComment := by
  unfold lineComment
  dsimp only
  have hkept : lexer.Comes ((lexer.keep (lexer.rest.takeWhile fun c => !isLineEnd c) true).skip
      (lexer.rest.takeWhile fun c => !isLineEnd c) (lexer.rest.dropWhile fun c => !isLineEnd c)) :=
    comes_skip (lexer.keep _ true) List.takeWhile_append_dropWhile.symm
  split
  next after hafter => exact hkept.trans (comes_skip _ hafter)
  next c after _ hafter => exact hkept.trans (comes_skip _ hafter)
  next => exact hkept

/-- What stands between tokens is left behind. -/
theorem comes_skipGaps (fuel : Nat) (lexer : Lexer) : lexer.Comes (skipGaps fuel lexer) := by
  -- The induction is on the steps of the lexer, each of which takes something or stops.
  induction fuel generalizing lexer with
  | zero => exact .refl _ _
  | succ fuel ih =>
    unfold skipGaps
    have line : lexer.Comes (skipGaps fuel lexer.lineComment) :=
      (comes_lineComment lexer).trans (ih _)
    split
    · exact line
    next hrest =>
      split
      next text after hcomment =>
        refine Text.Goes.trans (comes_skip (lexer.keep _ false) ?_) (ih _)
        show lexer.rest = _
        rw [hrest, Lexeme.append_of_blockComment? hcomment]
        rfl
      · exact .refl _ _
    · split
      · exact line
      · exact .refl _ _
    · split
      · exact line
      · exact .refl _ _
    next c rest _ _ _ _ hrest =>
      have hrest : lexer.rest = [c] ++ rest := hrest
      split
      · exact Text.Goes.trans (comes_skip lexer.lineEnded hrest) (ih _)
      · split
        · exact Text.Goes.trans (comes_skip lexer hrest) (ih _)
        · exact .refl _ _
    · exact .refl _ _

/-- The next token stands where the lexer is, or further on. -/
theorem next_gives (lexer : Lexer) : lexer.Gives lexer.next.1 lexer.next.2 :=
  (readToken_gives _).mono (comes_skipGaps _ lexer)

/-- A token read again as a regular expression starts where it did. -/
theorem asRegex_gives (lexer : Lexer) (token : Token) :
    (lexer.back token).Gives (lexer.asRegex token).1 (lexer.asRegex token).2 := by
  have hbody := Lexeme.goesOn_regexBody false (token.source.drop 1)
  unfold asRegex
  dsimp only
  split
  · exact bad_gives _ _ _
  next rest hread => exact absurd hread (Lexeme.regexBody_ne_bad _ _ _)
  next rest hread =>
    have hsuffix : rest.dropWhile Lexeme.isFlagPart <:+ token.source :=
      ((List.dropWhile_suffix _).trans (hbody () rest hread)).trans (List.drop_suffix _ _)
    split
    · exact emit_gives_of_not hsuffix
    · exact Gives.mono (emit_gives_of_not hsuffix) (.refl _ _)

theorem start_asRegex (lexer : Lexer) (token : Token) :
    (lexer.asRegex token).1.span.start = token.span.start := by
  unfold asRegex
  dsimp only
  split
  · rfl
  · rfl
  · split <;> rfl

/-- A token read again as a part of a template starts where it did. -/
theorem asTemplate_gives (lexer : Lexer) (token : Token) :
    (lexer.back token).Gives (lexer.asTemplate token).1 (lexer.asTemplate token).2 :=
  settle_gives (fun value rest hread =>
      (Lexeme.goesOn_template _ _ value rest hread).trans (List.drop_suffix _ _))
    fun _ _ _ hk => absurd hk (by simp [TokenKind.Takes])

end Lexer

end Script

end Bundler

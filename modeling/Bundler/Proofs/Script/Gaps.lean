import Bundler.Proofs.Script.Strings
import Bundler.Proofs.Script.Tokens

/-!
# What stands between tokens

Blanks and comments stand between tokens. A lexer goes past such a gap, and it goes past the same gap
whatever token stands behind it. Some tokens are then known from their own text.

* `Gap`: text between tokens;
* `Lexer.exists_gap`: what a lexer goes past is a gap;
* `Lexer.skipGaps_of_gap`: a lexer goes past a gap, whatever token follows;
* `Lexer.ReadsAs`, `Lexer.readToken_readsAs`: from what a token of a kind is read;
* `Lexer.exists_of_next_string`, `Lexer.next_string`: a string behind a gap, and likewise for a
  semicolon.
-/

namespace Bundler.Script

/-! ### Comments -/

namespace Lexeme

variable {text comment rest : List Char}

theorem ne_nil_of_blockComment? (h : blockComment? text = some (comment, rest)) : comment ≠ [] := by
  unfold blockComment? at h
  split at h
  · cases h
    exact List.cons_ne_nil _ _
  · obtain ⟨_, -, h⟩ := Option.map_eq_some_iff.1 h
    cases h
    exact List.cons_ne_nil _ _
  · cases h

/-- A block comment is read up to its end, whatever follows. -/
theorem blockComment?_append (h : blockComment? text = some (comment, rest)) (other : List Char) :
    blockComment? (comment ++ other) = some (comment, other) := by
  fun_induction blockComment? text generalizing comment with
  | case1 rest =>
    cases h
    rfl
  | case2 c more hnot ih =>
    obtain ⟨⟨inner, after⟩, hmore, h⟩ := Option.map_eq_some_iff.1 h
    cases h
    obtain ⟨d, inner, rfl⟩ := List.exists_cons_of_ne_nil (ne_nil_of_blockComment? hmore)
    have hsame := append_of_blockComment? hmore
    have hread := ih hmore
    rw [List.cons_append, blockComment?, hread]
    · rfl
    · rintro _ rfl heq
      obtain ⟨rfl, -⟩ := List.cons.inj heq
      exact hnot _ rfl hsame
  | case3 => cases h

end Lexeme

/-! ### Gaps -/

/-- Text between tokens: blanks, line ends and comments. -/
inductive Gap : List Char → Prop
  /-- Nothing. -/
  | nil : Gap []
  /-- A blank or a line end. -/
  | blank {c : Char} {rest : List Char} (hc : (isLineEnd c || isGap c) = true) (hrest : Gap rest) :
    Gap (c :: rest)
  /-- A comment that ends with its line. -/
  | line {text : List Char} {c : Char} {rest : List Char} (htext : ∀ c ∈ text, isLineEnd c = false)
    (hc : isLineEnd c = true) (hrest : Gap rest) : Gap ('/' :: '/' :: (text ++ c :: rest))
  /-- A comment with an end of its own. -/
  | block {comment rest : List Char} (hcomment : Lexeme.blockComment? comment = some (comment, []))
    (hrest : Gap rest) : Gap ('/' :: '*' :: (comment ++ rest))

theorem Gap.append {gap more : List Char} (h : Gap gap) (hmore : Gap more) : Gap (gap ++ more) := by
  induction h with
  | nil => exact hmore
  | blank hc _ ih => exact .blank hc ih
  | line htext hc _ ih =>
    rw [List.cons_append, List.cons_append, List.append_assoc]
    exact .line htext hc ih
  | block hcomment _ ih =>
    rw [List.cons_append, List.cons_append, List.append_assoc]
    exact .block hcomment ih

/-- A character that starts no gap, and nothing that is a comment in a script alone. -/
def Stops (c : Char) : Prop :=
  isLineEnd c = false ∧ isGap c = false ∧ c ≠ '/' ∧ c ≠ '<' ∧ c ≠ '-'

instance (c : Char) : Decidable (Stops c) :=
  inferInstanceAs (Decidable (_ ∧ _))

namespace Lexer

theorem skipGaps_of_nil {lexer : Lexer} (fuel : Nat) (h : lexer.rest = []) :
    skipGaps fuel lexer = lexer := by
  cases fuel with
  | zero => rfl
  | succ fuel =>
    unfold skipGaps
    split <;> simp_all

theorem lineComment_goal (lexer : Lexer) : lexer.lineComment.goal = lexer.goal := by
  unfold lineComment
  dsimp only
  split <;> rfl

theorem lineComment_newline (lexer : Lexer) : lexer.lineComment.newline = true := by
  unfold lineComment
  dsimp only
  split <;> rfl

/-- A comment that ends with its line is a gap, if it does not end the text. -/
theorem exists_gap_lineComment {lexer : Lexer} {rest : List Char}
    (h : lexer.rest = '/' :: '/' :: rest) (hrest : lexer.lineComment.rest ≠ []) :
    ∃ gap, Gap gap ∧ gap.any isLineEnd = true ∧ lexer.rest = gap ++ lexer.lineComment.rest := by
  have htext : ∀ c ∈ rest.takeWhile (fun c => !isLineEnd c), isLineEnd c = false :=
    fun c hc => by simpa using List.mem_takeWhile_imp hc
  have hdrop : lexer.rest.dropWhile (fun c => !isLineEnd c) =
      rest.dropWhile fun c => !isLineEnd c := by
    rw [h]
    rfl
  have hsplit := @List.takeWhile_append_dropWhile _ (fun c => !isLineEnd c) rest
  rw [← hdrop] at hsplit
  unfold lineComment at hrest ⊢
  dsimp only at hrest ⊢
  split at hrest
  next after hafter =>
    rw [hafter] at hsplit
    refine ⟨'/' :: '/' :: (_ ++ ['\r', '\n']), .line htext rfl (.blank (c := '\n') rfl .nil),
      List.any_eq_true.2 ⟨'\r', by simp, rfl⟩, ?_⟩
    simpa [hafter, skip, h] using hsplit.symm
  next c after _ hafter =>
    have hc : isLineEnd c = true := by
      have := List.head?_dropWhile_not (fun c => !isLineEnd c) lexer.rest
      rw [hafter] at this
      simpa using this
    rw [hafter] at hsplit
    refine ⟨'/' :: '/' :: (_ ++ [c]), .line htext hc .nil,
      List.any_eq_true.2 ⟨c, by simp, hc⟩, ?_⟩
    simpa [hafter, skip, h] using hsplit.symm
  next hafter => exact absurd hafter hrest

/-- What a lexer of a module goes past is a gap, if something stands behind it. -/
theorem exists_gap {fuel : Nat} {lexer after : Lexer} (h : skipGaps fuel lexer = after)
    (hgoal : lexer.goal = .module) (hrest : after.rest ≠ []) :
    ∃ gap, Gap gap ∧ lexer.rest = gap ++ after.rest ∧
      after.newline = (lexer.newline || gap.any isLineEnd) ∧ after.goal = .module := by
  -- Where the lexer stops at once there is no gap.
  have hnone {lexer : Lexer} (h : lexer = after) (hgoal : lexer.goal = .module) :
      ∃ gap, Gap gap ∧ lexer.rest = gap ++ after.rest ∧
        after.newline = (lexer.newline || gap.any isLineEnd) ∧ after.goal = .module := by
    subst h
    exact ⟨[], .nil, rfl, by simp, hgoal⟩
  -- The induction is on the steps of the lexer. Each takes a comment or a blank off the gap.
  induction fuel generalizing lexer with
  | zero => exact hnone h hgoal
  | succ fuel ih =>
    unfold skipGaps at h
    split at h
    next rest hstart =>
      have hleft : lexer.lineComment.rest ≠ [] := by
        intro hnil
        rw [skipGaps_of_nil fuel hnil] at h
        exact hrest (h ▸ hnil)
      obtain ⟨text, htext, hends, hsame⟩ := exists_gap_lineComment hstart hleft
      obtain ⟨gap, hgap, hgaps, hnewline, hgoal⟩ := ih h (lexer.lineComment_goal.trans hgoal)
      refine ⟨text ++ gap, htext.append hgap, ?_, ?_, hgoal⟩
      · rw [hsame, hgaps, List.append_assoc]
      · rw [hnewline, lineComment_newline, List.any_append, hends, Bool.true_or, Bool.or_true]
    next inside hstart =>
      split at h
      next text rest hcomment =>
        obtain ⟨gap, hgap, hsame, hnewline, hgoal⟩ := ih h hgoal
        refine ⟨'/' :: '*' :: (text ++ gap), .block ?_ hgap, ?_, ?_, hgoal⟩
        · simpa using Lexeme.blockComment?_append hcomment []
        · rw [hstart, Lexeme.append_of_blockComment? hcomment, List.cons_append, List.cons_append,
            List.append_assoc]
          exact congrArg (fun more => '/' :: '*' :: (text ++ more)) hsame
        · rw [hnewline]
          simp [keep, skip, List.any_append, Bool.or_assoc]
      · exact hnone h hgoal
    next =>
      -- In a module no comment starts with `<!--` or `-->`.
      rw [hgoal, if_neg (by simp)] at h
      exact hnone h hgoal
    next =>
      rw [hgoal, if_neg (by simp)] at h
      exact hnone h hgoal
    next c rest _ _ _ _ hstart =>
      split at h
      next hc =>
        obtain ⟨gap, hgap, hsame, hnewline, hgoal⟩ := ih h hgoal
        refine ⟨c :: gap, .blank (by rw [hc]; rfl) hgap, ?_, ?_, hgoal⟩
        · rw [hstart]
          exact congrArg (c :: ·) hsame
        · rw [hnewline, List.any_cons, hc]
          simp [lineEnded, skip]
      next hc =>
        split at h
        next hblank =>
          obtain ⟨gap, hgap, hsame, hnewline, hgoal⟩ := ih h hgoal
          refine ⟨c :: gap, .blank (by rw [hblank, Bool.or_true]) hgap, ?_, ?_, hgoal⟩
          · rw [hstart]
            exact congrArg (c :: ·) hsame
          · rw [hnewline, List.any_cons, Bool.eq_false_iff.2 hc]
            rfl
        · exact hnone h hgoal
    next => exact hnone h hgoal

/-- Where no gap starts, a lexer stays. -/
theorem skipGaps_of_stops {lexer : Lexer} (fuel : Nat) {c : Char} {rest : List Char}
    (hc : Stops c) (h : lexer.rest = c :: rest) : skipGaps fuel lexer = lexer := by
  obtain ⟨hend, hgap, hslash, hless, hminus⟩ := hc
  cases fuel with
  | zero => rfl
  | succ fuel =>
    unfold skipGaps
    rw [h]
    split
    next heq => exact absurd (List.cons.inj heq).1 hslash
    next heq => exact absurd (List.cons.inj heq).1 hslash
    next heq => exact absurd (List.cons.inj heq).1 hless
    next heq => exact absurd (List.cons.inj heq).1 hminus
    next heq =>
      obtain ⟨rfl, -⟩ := List.cons.inj heq
      rw [if_neg (by simp [hend]), if_neg (by simp [hgap])]
    next heq => cases heq

/-- What follows a comment that ends with its line. A line end of two characters is one. -/
theorem lineComment_rest {lexer : Lexer} {text rest : List Char} {c : Char}
    (htext : ∀ c ∈ text, isLineEnd c = false) (hc : isLineEnd c = true)
    (h : lexer.rest = '/' :: '/' :: (text ++ c :: rest)) :
    lexer.lineComment.rest = rest ∨
      ∃ more, rest = '\n' :: more ∧ lexer.lineComment.rest = more := by
  have hdrop : lexer.rest.dropWhile (fun c => !isLineEnd c) = c :: rest := by
    have hskip : ∀ d ∈ '/' :: '/' :: text, (!isLineEnd d) = true := by
      simpa [isLineEnd] using htext
    rw [h]
    exact (List.dropWhile_append_of_pos hskip).trans (List.dropWhile_cons_of_neg (by simp [hc]))
  unfold lineComment
  rw [hdrop]
  dsimp only
  split
  next after heq =>
    cases heq
    exact .inr ⟨after, rfl, rfl⟩
  next d after _ heq =>
    cases heq
    exact .inl rfl
  next heq => cases heq

/-- A lexer goes past a gap and stops behind it, whatever stands there. -/
theorem skipGaps_of_gap {gap : List Char} (hgap : Gap gap) {lexer : Lexer} {fuel : Nat} {c : Char}
    {rest : List Char} (hc : Stops c) (hfuel : gap.length ≤ fuel)
    (h : lexer.rest = gap ++ c :: rest) :
    (skipGaps fuel lexer).rest = c :: rest ∧
      (skipGaps fuel lexer).newline = (lexer.newline || gap.any isLineEnd) := by
  -- The induction is on the steps of the lexer, with the gap taken apart from its start.
  induction fuel generalizing lexer gap with
  | zero =>
    obtain rfl := List.eq_nil_of_length_eq_zero (Nat.le_zero.1 hfuel)
    exact ⟨h, by simp [skipGaps]⟩
  | succ fuel ih =>
    cases hgap with
    | nil =>
      rw [skipGaps_of_stops _ hc h]
      exact ⟨h, by simp⟩
    | @blank d gap hd hgap =>
      have hfuel : gap.length ≤ fuel := Nat.le_of_succ_le_succ hfuel
      rw [List.cons_append] at h
      unfold skipGaps
      rw [h]
      split
      -- A blank starts no comment.
      next heq => exact absurd ((List.cons.inj heq).1 ▸ hd) (by decide)
      next heq => exact absurd ((List.cons.inj heq).1 ▸ hd) (by decide)
      next heq => exact absurd ((List.cons.inj heq).1 ▸ hd) (by decide)
      next heq => exact absurd ((List.cons.inj heq).1 ▸ hd) (by decide)
      next e more _ _ _ _ heq =>
        obtain ⟨rfl, rfl⟩ := List.cons.inj heq
        split
        next hend =>
          obtain ⟨hleft, hnewline⟩ := ih hgap hfuel (rfl : (lexer.lineEnded.skip [d] _).rest = _)
          exact ⟨hleft, by rw [hnewline, List.any_cons, hend, Bool.true_or, Bool.or_true]; rfl⟩
        next hend =>
          have hblank : isGap d = true := by simpa [hend] using hd
          rw [if_pos hblank]
          obtain ⟨hleft, hnewline⟩ := ih hgap hfuel (rfl : (lexer.skip [d] _).rest = _)
          exact ⟨hleft, by rw [hnewline, List.any_cons, Bool.eq_false_iff.2 hend]; rfl⟩
      next heq => cases heq
    | @line text d gap htext hd hgap =>
      have hfuel : gap.length ≤ fuel := by
        simp only [List.length_cons, List.length_append] at hfuel
        omega
      have hcomment : skipGaps (fuel + 1) lexer = skipGaps fuel lexer.lineComment := by
        rw [skipGaps, h]
        rfl
      have hends : ('/' :: '/' :: (text ++ d :: gap)).any isLineEnd = true :=
        List.any_eq_true.2 ⟨d, by simp, hd⟩
      rw [hcomment, hends, Bool.or_true]
      have hline := lexer.lineComment_newline
      rw [List.cons_append, List.cons_append, List.append_assoc, List.cons_append] at h
      -- A carriage return is taken with a line feed behind it.
      rcases lineComment_rest htext hd h with hrest | ⟨more, hmore, hrest⟩
      · obtain ⟨hleft, hnewline⟩ := ih hgap hfuel hrest
        exact ⟨hleft, by rw [hnewline, hline, Bool.true_or]⟩
      · cases hgap with
        | nil =>
          obtain ⟨rfl, -⟩ := List.cons.inj hmore
          exact absurd hc (by decide)
        | @blank e gap _ hgap =>
          obtain ⟨rfl, rfl⟩ := List.cons.inj hmore
          obtain ⟨hleft, hnewline⟩ := ih hgap (Nat.le_of_succ_le hfuel) hrest
          exact ⟨hleft, by rw [hnewline, hline, Bool.true_or]⟩
        | line => cases hmore
        | block => cases hmore
    | @block comment gap hcomment hgap =>
      have hfuel : gap.length ≤ fuel := by
        simp only [List.length_cons, List.length_append] at hfuel
        omega
      have hskip : skipGaps (fuel + 1) lexer = skipGaps fuel
          ((lexer.keep ('/' :: '*' :: comment) false).skip ('/' :: '*' :: comment)
            (gap ++ c :: rest)) := by
        rw [List.cons_append, List.cons_append, List.append_assoc] at h
        rw [skipGaps, h]
        simp only [Lexeme.blockComment?_append hcomment]
      rw [hskip]
      obtain ⟨hleft, hnewline⟩ := ih hgap hfuel (rfl : (Lexer.skip _ _ (gap ++ c :: rest)).rest = _)
      refine ⟨hleft, ?_⟩
      rw [hnewline]
      simp [keep, skip, Bool.or_assoc]

/-! ### The token behind a gap -/

/-- From what a token of a kind is read. Only of strings and marks it is said what they are. -/
inductive ReadsAs (lexer : Lexer) : TokenKind → Prop
  /-- A string starts with a quote. -/
  | string {mark : Char} {rest after : List Char} {value : StringValue}
    (hmark : Lexeme.IsQuote mark) (hrest : lexer.rest = mark :: rest)
    (hread : Lexeme.string mark (lexer.rest.length + 1) rest [] = .done value after) :
    lexer.ReadsAs (.string value)
  /-- A mark is spelled. -/
  | mark {p : Punct} {rest : List Char} (h : punct? lexer.rest = some (p, rest)) :
    lexer.ReadsAs (.punct p)
  /-- A token of another kind. -/
  | other {kind : TokenKind} (hstring : ∀ value, kind ≠ .string value)
    (hmark : ∀ p, kind ≠ .punct p) : lexer.ReadsAs kind

theorem readsAs_settle {α : Type} {lexer : Lexer} {kind : α → TokenKind}
    {reading : Lexeme.Reading α}
    (h : ∀ value rest, reading = .done value rest → lexer.ReadsAs (kind value)) :
    lexer.ReadsAs (lexer.settle kind reading).1.kind := by
  cases reading with
  | done value rest => exact h value rest rfl
  | bad => exact .other nofun nofun
  | endless => exact .other nofun nofun

theorem readsAs_number (lexer : Lexer) :
    lexer.ReadsAs (lexer.settle id (Lexeme.number lexer.rest)).1.kind := by
  refine readsAs_settle fun kind rest hread => ?_
  have hkind := Lexeme.nameless_number _ _ _ hread
  exact .other (fun value h => hkind (.inr (.inl ⟨value, h⟩))) fun p h =>
    hkind (.inr (.inr ⟨p, h⟩))

theorem readsAs_mark (lexer bad : Lexer) :
    lexer.ReadsAs (match punct? lexer.rest with
      | some (p, rest) => lexer.emit (.punct p) rest
      | none => bad.emit .bad []).1.kind := by
  split
  next p rest h => exact .mark h
  · exact .other nofun nofun

/-- The first character of a token tells of what kind it can be. -/
theorem readToken_readsAs (lexer : Lexer) : lexer.ReadsAs lexer.readToken.1.kind := by
  unfold readToken
  dsimp only
  split
  · exact .other nofun nofun
  next rest hrest => exact readsAs_settle fun _ _ => .string (.inl rfl) hrest
  next rest hrest => exact readsAs_settle fun _ _ => .string (.inr rfl) hrest
  · exact readsAs_settle fun _ _ _ => .other nofun nofun
  · exact readsAs_settle fun _ _ _ => .other nofun nofun
  · split
    · exact readsAs_number lexer
    · exact readsAs_mark lexer lexer
  · exact .other nofun nofun
  · exact .other nofun nofun
  · split
    · exact readsAs_number lexer
    · split
      · exact readsAs_settle fun _ _ _ => .other nofun nofun
      · exact readsAs_mark lexer _

/-- A string starts with a quote. -/
theorem exists_of_readToken_string {lexer : Lexer} {value : StringValue}
    (h : lexer.readToken.1.kind = .string value) :
    ∃ mark rest after, Lexeme.IsQuote mark ∧ lexer.rest = mark :: rest ∧
      Lexeme.string mark (lexer.rest.length + 1) rest [] = .done value after := by
  have hreads := lexer.readToken_readsAs
  rw [h] at hreads
  cases hreads with
  | string hmark hrest hread => exact ⟨_, _, _, hmark, hrest, hread⟩
  | other hstring => exact absurd rfl (hstring value)

theorem eq_of_punct?_semicolon {text rest : List Char}
    (h : punct? text = some (.semicolon, rest)) : text = ';' :: rest := by
  unfold punct? at h
  split at h
  · cases h
  next c more =>
    split at h
    · cases h
    next spelling p hfind =>
      have hmem := (List.mem_filter.1 (List.mem_of_find?_eq_some hfind)).1
      have hstart := List.find?_some hfind
      dsimp only at h hstart
      split at h
      · cases h
      · cases h
        -- Only one spelling in the table stands for a semicolon.
        have hspelling : spelling = [';'] :=
          (by decide : ∀ spelling ∈ Punct.spellings, spelling.2 = .semicolon → spelling.1 = [';'])
            _ hmem rfl
        subst hspelling
        obtain ⟨rest, hrest⟩ := List.isPrefixOf_iff_prefix.1 hstart
        rw [← hrest]
        rfl

/-- A semicolon is written as one. -/
theorem exists_of_readToken_semicolon {lexer : Lexer}
    (h : lexer.readToken.1.kind = .punct .semicolon) : ∃ rest, lexer.rest = ';' :: rest := by
  have hreads := lexer.readToken_readsAs
  rw [h] at hreads
  cases hreads with
  | mark hmark => exact ⟨_, eq_of_punct?_semicolon hmark⟩
  | other _ hmark => exact absurd rfl (hmark .semicolon)

end Lexer

/-! ### Strings and semicolons behind gaps -/

/-- What stands between two quotes and is read as a value, whatever follows. -/
def Lexeme.Writes (mark : Char) (inside : List Char) (value : StringValue) : Prop :=
  IsQuote mark ∧ ∀ (other : List Char) (fuel : Nat), inside.length < fuel →
    string mark fuel (inside ++ mark :: other) [] = .done value other

namespace Lexer

/-- A token is written with what the lexer takes. -/
theorem written_emit (lexer : Lexer) (kind : TokenKind) {read rest : List Char}
    (h : lexer.rest = read ++ rest) : (lexer.emit kind rest).1.written = read := by
  have hbefore : Text.before? (read ++ rest) (Text.byteLength read) = some read := by
    clear h
    induction read with
    | nil => rw [Text.byteLength_nil, Text.before?]
    | cons c read ih =>
      have hpos := c.utf8Size_pos
      rw [Text.byteLength_cons, List.cons_append]
      obtain ⟨n, hn⟩ := Nat.exists_eq_add_one_of_ne_zero
        (Nat.ne_of_gt (Nat.add_pos_left hpos (Text.byteLength read)))
      rw [hn, Text.before?, ← hn, if_pos (Nat.le_add_right _ _), Nat.add_sub_cancel_left, ih]
      rfl
  rw [Token.written, emit]
  dsimp only
  rw [offsetOf, Nat.add_sub_cancel_left, h, List.length_append, Nat.add_sub_cancel,
    List.take_left, hbefore]
  rfl

/-- A token is of a kind and written with a text that stands behind a gap, and another text is left
    behind it. -/
structure Shows (lexer : Lexer) (gap text rest : List Char) (kind : TokenKind) (token : Token)
    (after : Lexer) : Prop where
  /-- The token is of the kind. -/
  kind : token.kind = kind
  /-- A line ends before it if one ends in the gap. -/
  newline : token.newline = (lexer.newline || gap.any isLineEnd)
  /-- It is written with the text. -/
  written : token.written = text
  /-- It stands behind the gap. -/
  span : token.span =
    ⟨lexer.offset + Text.byteLength gap, lexer.offset + Text.byteLength (gap ++ text)⟩
  /-- The other text is left. -/
  rest : after.rest = rest
  /-- It stands behind the token. -/
  offset : after.offset = lexer.offset + Text.byteLength (gap ++ text)
  /-- No line has ended behind the token so far. -/
  fresh : after.newline = false

/-- The next token is the one behind the gap. -/
theorem next_of_gap {lexer : Lexer} {gap rest : List Char} {c : Char} (hgap : Gap gap)
    (hc : Stops c) (h : lexer.rest = gap ++ c :: rest) :
    ∃ behind : Lexer, lexer.next = behind.readToken ∧ behind.rest = c :: rest ∧
      behind.newline = (lexer.newline || gap.any isLineEnd) ∧
      behind.offset = lexer.offset + Text.byteLength gap := by
  have hfuel : gap.length ≤ lexer.rest.length + 1 := by
    rw [h, List.length_append]
    omega
  obtain ⟨hleft, hnewline⟩ := skipGaps_of_gap hgap hc hfuel h
  obtain ⟨read, hsame, hoffset⟩ := comes_skipGaps (lexer.rest.length + 1) lexer
  rw [hleft] at hsame
  obtain rfl := List.append_cancel_right (h.symm.trans hsame)
  exact ⟨_, rfl, hleft, hnewline, hoffset.symm⟩

/-- A token behind a gap is the next one, if it is known where it starts. -/
theorem shows_of_gap {lexer : Lexer} {gap text rest : List Char} {kind : TokenKind} {c : Char}
    (hgap : Gap gap) (hc : c ∈ text.head?) (hstops : Stops c)
    (h : lexer.rest = gap ++ (text ++ rest))
    (hread : ∀ behind : Lexer, behind.rest = text ++ rest →
      behind.readToken = behind.emit kind rest) :
    lexer.Shows gap text rest kind lexer.next.1 lexer.next.2 := by
  obtain ⟨inside, rfl⟩ := List.head?_eq_some_iff.1 hc
  obtain ⟨behind, hnext, hleft, hnewline, hoffset⟩ := next_of_gap hgap hstops h
  have hleft : behind.rest = (c :: inside) ++ rest := hleft
  have htoken := hread behind hleft
  have hstop : behind.offsetOf rest = lexer.offset + Text.byteLength (gap ++ (c :: inside)) := by
    rw [offsetOf, hleft, hoffset, List.length_append, Nat.add_sub_cancel, List.take_left,
      Text.byteLength_append, Nat.add_assoc]
  refine ⟨?_, ?_, ?_, ?_, ?_, ?_, ?_⟩
  all_goals rw [hnext, htoken]
  · rfl
  · exact hnewline
  · exact written_emit _ _ hleft
  · exact congrArg₂ Span.mk hoffset hstop
  · rfl
  · exact hstop
  · rfl

theorem stops_of_isQuote {mark : Char} (h : Lexeme.IsQuote mark) : Stops mark := by
  rcases h with rfl | rfl <;> decide

theorem readToken_string {lexer : Lexer} {mark : Char} {rest after : List Char} {value : StringValue}
    (hmark : Lexeme.IsQuote mark) (h : lexer.rest = mark :: rest)
    (hread : Lexeme.string mark (lexer.rest.length + 1) rest [] = .done value after) :
    lexer.readToken = lexer.emit (.string value) after := by
  rcases hmark with rfl | rfl
  all_goals
    unfold readToken
    rw [h] at hread ⊢
    exact congrArg (lexer.settle .string) hread

/-- A string behind a gap is the next token, whatever follows it. -/
theorem next_string {lexer : Lexer} {gap inside rest : List Char} {mark : Char}
    {value : StringValue} (hgap : Gap gap) (hwrites : Lexeme.Writes mark inside value)
    (h : lexer.rest = gap ++ (mark :: (inside ++ [mark]) ++ rest)) :
    lexer.Shows gap (mark :: (inside ++ [mark])) rest (.string value) lexer.next.1
      lexer.next.2 := by
  refine shows_of_gap (c := mark) hgap rfl (stops_of_isQuote hwrites.1) h fun behind hbehind => ?_
  rw [List.cons_append, List.append_assoc, List.singleton_append] at hbehind
  refine readToken_string hwrites.1 hbehind (hwrites.2 rest _ ?_)
  rw [hbehind, List.length_cons, List.length_append]
  omega

/-- A string that is the next token stands behind a gap, between quotes. -/
theorem exists_of_next_string {lexer : Lexer} {value : StringValue} (hgoal : lexer.goal = .module)
    (h : lexer.next.1.kind = .string value) :
    ∃ gap mark inside rest, Gap gap ∧ Lexeme.Writes mark inside value ∧
      lexer.rest = gap ++ (mark :: (inside ++ [mark]) ++ rest) ∧
      lexer.next.2.goal = .module := by
  obtain ⟨mark, rest, after, hmark, hrest, hread⟩ := exists_of_readToken_string h
  obtain ⟨gap, hgap, hsame, -, hbehind⟩ := exists_gap rfl hgoal (by rw [hrest]; nofun)
  have htoken := readToken_string hmark hrest hread
  obtain ⟨inside, rfl, hinside⟩ := Lexeme.exists_of_string hmark hread
  refine ⟨gap, mark, inside, after, hgap, ⟨hmark, hinside⟩, ?_, ?_⟩
  · rw [hsame, hrest]
    simp
  · rw [next, htoken]
    exact hbehind

/-- A semicolon starts nothing but a mark. -/
theorem readToken_eq_mark {lexer : Lexer} {rest : List Char} (h : lexer.rest = ';' :: rest) :
    lexer.readToken = match punct? lexer.rest with
      | some (p, rest) => lexer.emit (.punct p) rest
      | none => (lexer.complain lexer.offset "Unexpected character").emit .bad [] := by
  unfold readToken
  rw [h]
  rfl

theorem readToken_semicolon {lexer : Lexer} {rest : List Char} (h : lexer.rest = ';' :: rest) :
    lexer.readToken = lexer.emit (.punct .semicolon) rest := by
  have hstart : Punct.startingWith ';' = [([';'], .semicolon)] := by decide
  have hpunct : punct? (';' :: rest) = some (.semicolon, rest) := by
    simp [punct?, hstart, List.isPrefixOf]
  rw [readToken_eq_mark h, h, hpunct]

/-- A semicolon behind a gap is the next token, whatever follows it. -/
theorem next_semicolon {lexer : Lexer} {gap rest : List Char} (hgap : Gap gap)
    (h : lexer.rest = gap ++ ';' :: rest) :
    lexer.Shows gap [';'] rest (.punct .semicolon) lexer.next.1 lexer.next.2 :=
  shows_of_gap hgap rfl (by decide) h fun _ hbehind => readToken_semicolon hbehind

/-- A semicolon that is the next token stands behind a gap. -/
theorem exists_of_next_semicolon {lexer : Lexer} (hgoal : lexer.goal = .module)
    (h : lexer.next.1.kind = .punct .semicolon) :
    ∃ gap rest, Gap gap ∧ lexer.rest = gap ++ ';' :: rest ∧ lexer.next.2.goal = .module := by
  obtain ⟨rest, hrest⟩ := exists_of_readToken_semicolon h
  obtain ⟨gap, hgap, hsame, -, hbehind⟩ := exists_gap rfl hgoal (by rw [hrest]; nofun)
  refine ⟨gap, rest, hgap, hsame.trans (by rw [hrest]), ?_⟩
  rw [next, readToken_semicolon hrest]
  exact hbehind

/-! ### The name behind directives -/

theorem name_object (fuel : Nat) (rest : List Char) :
    Lexeme.name (fuel + 7) true ("Object".toList ++ '.' :: rest) [] false =
      .done ("Object", false) ('.' :: rest) :=
  rfl

/-- The name by which exports are set up is a token of its own. -/
theorem next_object {lexer : Lexer} {gap rest : List Char} (hgap : Gap gap)
    (h : lexer.rest = gap ++ ("Object".toList ++ '.' :: rest)) :
    lexer.Shows gap "Object".toList ('.' :: rest) (.name "Object" false) lexer.next.1
      lexer.next.2 := by
  refine shows_of_gap hgap rfl (by decide) h fun behind hbehind => ?_
  unfold readToken
  rw [hbehind]
  exact congrArg (behind.settle fun read => .name read.1 read.2) (name_object (rest.length + 1) rest)

end Lexer

end Bundler.Script

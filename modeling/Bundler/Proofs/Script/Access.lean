import Bundler.Proofs.Script.Spelled
import Bundler.Script.Parser

/-!
# Properties known from their texts

What readers do with tokens that are known. They never stop there, so each of them is a step from
the state in which it starts to the state behind the tokens that it takes. A name with a dot and
another name behind it, or with a quoted text in brackets, is read as a property of what the first
name stands for.

* `State.taken`: the state behind a token;
* `repeated_of_step`, `repeated_of_done`: a loop, from what its first step does;
* `bracketed_string`: a string in brackets is an expression of its own;
* `Begins`: what an operand starts with;
* `Asks`: the texts that ask for a property;
* `asks_dot`, `asks_bracket`: the two ways to write a property.
-/

namespace Bundler.Script

namespace Parser

variable {α β σ : Type} {context : Context} {state now final : State} {reader : Reader}

/-! ### Readers that do not stop -/

/-- The state behind the token at which a reader stands. -/
def State.taken (state : State) : State :=
  { state with
    token := state.lexer.next.1
    lexer := state.lexer.next.2
    stop := state.token.span.stop }

@[simp] theorem State.taken_stop (state : State) : state.taken.stop = state.token.span.stop := rfl

@[simp] theorem pure_apply (a : α) : (pure a : ParserM α) context state = .ok a state := rfl

@[simp] theorem bind_apply (read : ParserM α) (next : α → ParserM β) :
    (read >>= next) context state =
      match read context state with
      | .ok a now => next a context now
      | .error e now => .error e now := by
  simp only [bind, ReaderT.bind, EStateM.bind]
  cases read context state <;> rfl

@[simp] theorem map_apply (f : α → β) (read : ParserM α) :
    (f <$> read) context state =
      match read context state with
      | .ok a now => .ok (f a) now
      | .error e now => .error e now := by
  simp only [Functor.map, EStateM.map]
  cases read context state <;> rfl

@[simp] theorem get_apply : (get : ParserM State) context state = .ok state state := rfl

@[simp] theorem read_apply : (read : ParserM Context) context state = .ok context state := rfl

@[simp] theorem token_apply : token context state = .ok state.token state := rfl

@[simp] theorem kind_apply : kind context state = .ok state.token.kind state := rfl

@[simp] theorem here_apply : here context state = .ok state.token.span.start state := rfl

@[simp] theorem spanFrom_apply (start : Nat) :
    spanFrom start context state = .ok ⟨start, state.stop⟩ state := rfl

@[simp] theorem second_apply : second context state = .ok state.lexer.next.1 state := rfl

@[simp] theorem advance_apply : advance context state = .ok () state.taken := rfl

@[simp] theorem at?_apply (p : Punct) :
    at? p context state = .ok (state.token.kind == .punct p) state := rfl

@[simp] theorem withIn_apply (read : ParserM α) :
    withIn read context state = read { context with allowIn := true } state := rfl

theorem expect_apply {p : Punct} (h : state.token.kind = .punct p) :
    expect p context state = .ok () state.taken := by
  simp [expect, eat?, h]

/-! ### Loops -/

/-- A loop that ends does so with more steps at hand as well. -/
theorem iterate_mono {step : σ → ParserM (σ ⊕ α)} {fuel more : Nat} {s : σ} {result : α}
    (h : iterate step fuel s context state = .ok result final) (hle : fuel ≤ more) :
    iterate step more s context state = .ok result final := by
  induction fuel generalizing s state more with
  | zero => cases h
  | succ fuel ih =>
    obtain ⟨more, rfl⟩ := Nat.exists_eq_add_one_of_ne_zero (show more ≠ 0 by omega)
    simp only [iterate, bind_apply] at h ⊢
    split at h
    next found after hstep =>
      cases found with
      | inl s => exact ih h (by omega)
      | inr found => exact h
    next => cases h

/-- A loop whose first step gives a result ends with it. -/
theorem repeated_of_done {step : σ → ParserM (σ ⊕ α)} {s : σ} {result : α}
    (h : step s context state = .ok (.inr result) now) :
    repeated step s context state = .ok result now := by
  simp [repeated, iterate, h]

/-- A loop whose first step takes something ends as it does from there. -/
theorem repeated_of_step {step : σ → ParserM (σ ⊕ α)} {s t : σ} {result : α}
    (hstep : step s context state = .ok (.inl t) now)
    (hlt : now.token.source.length < state.token.source.length)
    (h : repeated step t context now = .ok result final) :
    repeated step s context state = .ok result final := by
  rw [repeated, bind_apply, token_apply] at h ⊢
  dsimp only at h ⊢
  rw [iterate, bind_apply, hstep]
  -- As many steps are left as a loop is given that starts behind the first one.
  exact iterate_mono h (Nat.succ_le_succ hlt)

/-! ### A string alone -/

section String

variable {value : StringValue}

theorem literalToken_apply (literal : Literal) :
    literalToken literal context state = .ok (.literal state.token.span literal) state.taken := by
  simp [literalToken]

/-- The tokens with which a property, a call or a template starts behind a value. -/
def startsSuffix : TokenKind → Bool
  | .punct p => p ∈ [Punct.dot, .bracketOpen, .parenOpen, .questionDot]
  | .template first _ _ => first
  | _ => false

/-- Before another token a value is all there is. -/
theorem suffixes_of_not {calls brackets : Bool} {start : Nat} {node : Node}
    (h : startsSuffix state.token.kind = false) :
    suffixes reader calls brackets start node context state = .ok node state := by
  refine repeated_of_done ?_
  simp only [bind_apply, token_apply]
  generalize state.token.kind = kind at h ⊢
  cases kind with
  | punct p => cases p <;> first | rfl | cases h
  | template first => cases first <;> first | rfl | cases h
  | _ => rfl

/-- The tokens behind which a value does not go on: no property, call or operator starts with
    them. -/
def endsValue : TokenKind → Bool
  | .punct p => p ∈ [Punct.bracketClose, .semicolon]
  | .string _ => true
  | .name word _ => word ≠ "in" ∧ word ≠ "instanceof"
  | _ => false

theorem startsSuffix_of_endsValue {kind : TokenKind} (h : endsValue kind = true) :
    startsSuffix kind = false := by
  cases kind with
  | punct p => cases p <;> first | rfl | cases h
  | template => cases h
  | _ => rfl

/-- A token that ends a value is none of some others. -/
theorem ne_of_endsValue {kind : TokenKind} (h : endsValue kind = true) (other : TokenKind)
    (hother : endsValue other = false) : kind ≠ other := by
  rintro rfl
  rw [h] at hother
  cases hother

theorem operator?_of_endsValue (h : endsValue state.token.kind = true) :
    operator? context state = .ok none state := by
  simp only [operator?, bind_apply, token_apply]
  generalize state.token.kind = kind at h ⊢
  cases kind with
  | punct p => cases p <;> first | rfl | cases h
  | name word escaped =>
    obtain ⟨hin, hinstance⟩ : word ≠ "in" ∧ word ≠ "instanceof" := of_decide_eq_true h
    simp [hin, hinstance]
  | string => rfl
  | _ => cases h

theorem assignmentRest_of_endsValue {start : Nat} {node : Node}
    (h : endsValue state.token.kind = true) :
    assignmentRest reader start node context state = .ok node state := by
  simp only [assignmentRest, bind_apply, token_apply]
  generalize state.token.kind = kind at h ⊢
  cases kind with
  | punct p => cases p <;> first | rfl | cases h
  | _ => rfl

/-- The node of a string at which a reader stands. -/
def State.stringNode (state : State) (value : StringValue) : Node :=
  .literal state.token.span (.string value state.token.written)

theorem operand_string {brackets : Bool} (h : state.token.kind = .string value)
    (hend : endsValue state.taken.token.kind = true) :
    operand reader brackets context state = .ok (state.stringNode value) state.taken := by
  simp only [operand, bind_apply, here_apply, primary, token_apply, h, literalToken_apply]
  exact suffixes_of_not (startsSuffix_of_endsValue hend)

theorem unary_string (h : state.token.kind = .string value)
    (hend : endsValue state.taken.token.kind = true) :
    unary reader context state = .ok (state.stringNode value) state.taken := by
  have hop : UnaryOp.ofToken? (.string value) = none := rfl
  have hincrement := ne_of_endsValue hend (.punct .increment) rfl
  have hdecrement := ne_of_endsValue hend (.punct .decrement) rfl
  simp [unary, postfixed, h, hop, Token.isWord, operand_string h hend, hincrement, hdecrement]

theorem binary_string {level : Level} (h : state.token.kind = .string value)
    (hend : endsValue state.taken.token.kind = true) :
    binary reader level context state = .ok (state.stringNode value) state.taken := by
  -- No operator goes on with the string.
  have hop : operator? context state.taken = .ok none state.taken := operator?_of_endsValue hend
  -- A mark before a string marks nothing.
  simp only [binary, atPureMark?, bind_apply, here_apply, get_apply, pure_apply, token_apply, h,
    unary_string h hend, State.stringNode, markPure, ite_self]
  exact repeated_of_done (by simp [hop])

theorem assignment_string (h : state.token.kind = .string value)
    (hend : endsValue state.taken.token.kind = true) :
    assignment reader context state = .ok (state.stringNode value) state.taken := by
  have harrow := ne_of_endsValue hend (.punct .arrow) rfl
  simp [assignment, Token.isWord, h, binary_string h hend, arrowAfter?, harrow,
    assignmentRest_of_endsValue hend]

/-- A string is an expression of its own, if it does not go on behind the string. -/
theorem expression_string {depth : Nat} (h : state.token.kind = .string value)
    (hend : endsValue state.taken.token.kind = true) :
    expression (run (depth + 1)) context state = .ok (state.stringNode value) state.taken := by
  have hcomma := ne_of_endsValue hend (.punct .comma) rfl
  simp [expression, run, assignment_string h hend, hcomma]

/-- A string in brackets is an expression of its own. -/
theorem bracketed_string {depth : Nat} (hopen : state.token.kind = .punct .bracketOpen)
    (h : state.taken.token.kind = .string value)
    (hclose : state.taken.taken.token.kind = .punct .bracketClose) :
    bracketed (run (depth + 1)) context state =
      .ok (state.taken.stringNode value) state.taken.taken.taken := by
  have hexpression (context : Context) : expression (run (depth + 1)) context state.taken =
      .ok (state.taken.stringNode value) state.taken.taken :=
    expression_string h (by rw [hclose]; rfl)
  simp only [bracketed, bind_apply, expect_apply hopen, withIn_apply, hexpression,
    expect_apply hclose, pure_apply]

end String

/-! ### A name and a property of it -/

/-- Whether a word has no meaning of its own in a context. -/
def Context.lets (context : Context) (word : String) : Bool :=
  !(word == "yield" && context.yields) && !(word == "await" && context.awaits)

@[simp] theorem mayName?_apply (word : String) :
    mayName? word context state = .ok (context.lets word) state := rfl

/-- A token that writes a name by which something may be called. -/
structure Names (context : Context) (token : Token) (word : String) : Prop where
  /-- It writes the name. -/
  kind : ∃ escaped, token.kind = .name word escaped
  /-- The name is no keyword. -/
  free : isReserved word = false
  /-- It has no meaning of its own. -/
  lets : context.lets word = true

variable {word : String}

theorem reference_apply (h : Names context state.token word) :
    reference context state = .ok (.name ⟨word, state.token.span⟩) state.taken := by
  obtain ⟨⟨escaped, hkind⟩, hfree, hlets⟩ := h
  simp [reference, ident, Token.name?, hkind, hfree, hlets]

/-- A name is a reference, if it is not the mark of a function that may wait. -/
theorem primary_name (h : Names context state.token word)
    (hfunction : state.taken.token.isWord "function" = false) :
    primary reader context state = .ok (.name ⟨word, state.token.span⟩) state.taken := by
  have hreference := reference_apply h
  obtain ⟨⟨escaped, hkind⟩, hfree, -⟩ := h
  cases escaped with
  | true => simpa only [primary, bind_apply, token_apply, hkind] using hreference
  | false =>
    have hne (other : String) (hother : isReserved other = true) : word ≠ other := by
      rintro rfl
      rw [hfree] at hother
      cases hother
    simp only [primary, bind_apply, token_apply, hkind, wordExpression, here_apply]
    split
    -- The other words that mean something here are keywords.
    all_goals try exact absurd rfl (hne _ (by decide))
    next =>
      -- The word starts a function only before another word.
      have hasync : atAsyncFunction? context state = .ok false state := by
        have hhere : state.token.isWord "async" = true := by simp [Token.isWord, hkind]
        have hnext : state.lexer.next.1.isWord "function" = false := hfunction
        simp [atAsyncFunction?, atWord?, hhere, hnext]
      simpa [hasync] using hreference
    next => exact hreference

/-- An operand starts with a value and goes on with what is read behind it. -/
def Begins (reader : Reader) (context : Context) (state : State) (value : Node) (behind : State) :
    Prop :=
  ∀ node final,
    suffixes reader true true state.token.span.start value context behind = .ok node final →
    operand reader true context state = .ok node final

/-- Where nothing goes on, a value is the operand. -/
theorem Begins.alone {value : Node} {behind : State} (h : Begins reader context state value behind)
    (hend : startsSuffix behind.token.kind = false) :
    operand reader true context state = .ok value behind :=
  h _ _ (suffixes_of_not hend)

theorem begins_dot {key : String} {escaped : Bool} (h : Names context state.token word)
    (hdot : state.taken.token.kind = .punct .dot)
    (hkey : state.taken.taken.token.kind = .name key escaped)
    (hlt : state.taken.taken.taken.token.source.length < state.taken.token.source.length) :
    Begins reader context state
      (.member ⟨state.token.span.start, state.taken.taken.token.span.stop⟩
        (.name ⟨word, state.token.span⟩) (.keyName ⟨key, state.taken.taken.token.span⟩) false)
      state.taken.taken.taken := by
  intro node final hsuffixes
  simp only [operand, bind_apply, here_apply, primary_name h (by rw [Token.isWord, hdot]; rfl)]
  refine repeated_of_step ?_ hlt hsuffixes
  simp [hdot, propertyName, anyName, hkey, checkPrivate]

theorem begins_bracket {value : StringValue} {depth : Nat} (h : Names context state.token word)
    (hopen : state.taken.token.kind = .punct .bracketOpen)
    (hkey : state.taken.taken.token.kind = .string value)
    (hclose : state.taken.taken.taken.token.kind = .punct .bracketClose)
    (hlt : state.taken.taken.taken.taken.token.source.length < state.taken.token.source.length) :
    Begins (run (depth + 1)) context state
      (.index ⟨state.token.span.start, state.taken.taken.taken.token.span.stop⟩
        (.name ⟨word, state.token.span⟩) (state.taken.taken.stringNode value) false)
      state.taken.taken.taken.taken := by
  intro node final hsuffixes
  simp only [operand, bind_apply, here_apply, primary_name h (by rw [Token.isWord, hopen]; rfl)]
  refine repeated_of_step ?_ hlt hsuffixes
  have hbracketed : bracketed (run (depth + 1)) context state.taken = _ :=
    bracketed_string hopen hkey hclose
  simp [hopen, hbracketed]

/-! ### From the texts -/

variable {lexer : Lexer} {kind : TokenKind} {rest : List Char}

/-- A reader stands at the first token of what a lexer is left with. -/
def State.Stands (state : State) (lexer : Lexer) : Prop :=
  lexer.next = (state.token, state.lexer)

theorem State.stands_taken (state : State) : state.taken.Stands state.lexer := rfl

theorem State.Stands.token_eq (h : state.Stands lexer) : lexer.next.1 = state.token :=
  congrArg Prod.fst h

theorem State.Stands.lexer_eq (h : state.Stands lexer) : lexer.next.2 = state.lexer :=
  congrArg Prod.snd h

/-- What is known of the token behind a gap is known where a reader stands. -/
theorem State.Stands.shows_behind {gap text : List Char} (h : state.Stands lexer)
    (hnext : lexer.Shows gap text rest kind lexer.next.1 lexer.next.2) :
    lexer.Shows gap text rest kind state.token state.lexer := by
  rwa [h.token_eq, h.lexer_eq] at hnext

theorem State.Stands.length_source_le (h : state.Stands lexer) :
    state.token.source.length ≤ lexer.rest.length := by
  obtain ⟨read, hrest, -⟩ := lexer.next_gives.starts
  rw [hrest, h.token_eq, List.length_append]
  exact Nat.le_add_left _ _

/-- A reader stands where a lexer is, at a token of a kind, and a text is left behind it. -/
structure State.Shows (state : State) (lexer : Lexer) (kind : TokenKind) (rest : List Char) :
    Prop where
  /-- The token is of the kind. -/
  kind : state.token.kind = kind
  /-- It starts where the lexer is. -/
  source : state.token.source = lexer.rest
  /-- The text is left. -/
  rest : state.lexer.rest = rest
  /-- It stands behind the token. -/
  offset : state.lexer.offset = state.token.span.stop
  /-- The token was not malformed. -/
  issues : state.lexer.issues = lexer.issues

theorem State.Stands.shows (h : state.Stands lexer) (hnext : lexer.next = lexer.emit kind rest) :
    state.Shows lexer kind rest := by
  obtain ⟨htoken, hlexer⟩ := Prod.mk.inj (h.symm.trans hnext)
  exact ⟨congrArg Token.kind htoken, congrArg Token.source htoken, by rw [hlexer],
    by rw [hlexer, htoken], by rw [hlexer]⟩

/-- The property that an expression asks for in what a name stands for, whether its key is written
    as a name or as a string. -/
def access? : Node → Option (Ident × StringValue)
  | .member _ (.name id) (.keyName key) false => some (id, key.name.toList.map .char)
  | .index _ (.name id) (.literal _ (.string key _)) false => some (id, key)
  | _ => none

/-- Behind a name, a text asks for a property of what the name stands for, if another text follows.
    No issue is found, the operand starts with the property, and it goes on with what follows, if
    that goes on with it. -/
def Asks (written : List Char) (key : StringValue) (rest : List Char) : Prop :=
  ∀ (name : List Char) (word : String) (escaped : Bool) (lexer : Lexer) (state : State)
    (context : Context) (depth : Nat), Lexeme.Spells name word escaped → isReserved word = false →
    context.lets word = true → lexer.rest = name ++ (written ++ rest) → state.Stands lexer →
    ∃ access behind after, access? access = some (⟨word, state.token.span⟩, key) ∧
      access.span = ⟨state.token.span.start, behind.stop⟩ ∧
      behind.Stands after ∧ after.rest = rest ∧ after.offset = behind.stop ∧
      behind.issues = state.issues ∧ after.issues = lexer.issues ∧
      Begins (run (depth + 1)) context state access behind ∧
      (startsSuffix behind.token.kind = false →
        operand (run (depth + 1)) true context state = .ok access behind)

theorem endsName_cons {c : Char} (hpart : isNamePart c = false) (hslash : c ≠ '\\')
    (rest : List Char) : Lexeme.EndsName (c :: rest) := by
  intro d hd
  obtain rfl := Option.some.inj hd
  exact ⟨hpart, hslash⟩

/-- A name behind a dot asks for a property, if what follows does not go on with the name. -/
theorem asks_dot {key : String} {c : Char} {inside : List Char} (h : key.toList = c :: inside)
    (hstart : isNameStart c = true) (hinside : ∀ d ∈ inside, isNamePart d = true)
    (hrest : Lexeme.EndsName rest) :
    Asks ('.' :: key.toList) (key.toList.map .char) rest := by
  intro name word escaped lexer state context depth hname hfree hlets htext hstands
  rw [List.cons_append] at htext
  -- The tokens one after another: the name, the dot and the key.
  have hhere := hstands.shows
    (Lexer.next_name hname (endsName_cons (by decide) (by decide) _) htext)
  have hdot : state.taken.Shows state.lexer (.punct .dot) (key.toList ++ rest) := by
    refine state.stands_taken.shows ?_
    rw [h]
    exact Lexer.next_dot hstart (by rw [hhere.rest, h]; rfl)
  have hkey : state.taken.taken.Shows state.taken.lexer (.name key false) rest :=
    state.taken.stands_taken.shows
      (Lexer.next_name (Lexeme.spells_of_parts h hstart hinside) hrest hdot.rest)
  have hbehind := state.taken.taken.stands_taken
  have hlt : state.taken.taken.taken.token.source.length < state.taken.token.source.length := by
    have hlength := hbehind.length_source_le
    rw [hkey.rest] at hlength
    rw [hdot.source, hhere.rest, List.length_cons, List.length_append]
    omega
  have hbegins : Begins (run (depth + 1)) context state _ _ :=
    begins_dot ⟨⟨_, hhere.kind⟩, hfree, hlets⟩ hdot.kind hkey.kind hlt
  exact ⟨_, _, _, rfl, rfl, hbehind, hkey.rest, hkey.offset, rfl,
    hkey.issues.trans (hdot.issues.trans hhere.issues), hbegins, hbegins.alone⟩

/-- A quoted text in brackets asks for a property, whatever follows. -/
theorem asks_bracket (key : String) (rest : List Char) :
    Asks ('[' :: (Text.quote key).toList ++ [']']) (key.toList.map .char) rest := by
  intro name word escaped lexer state context depth hname hfree hlets htext hstands
  rw [List.cons_append, List.cons_append, List.append_assoc, List.singleton_append] at htext
  -- The tokens one after another: the name, the brackets and the key between them.
  have hhere := hstands.shows
    (Lexer.next_name hname (endsName_cons (by decide) (by decide) _) htext)
  have hopen := state.stands_taken.shows (Lexer.next_bracket (.inl ⟨rfl, rfl⟩) hhere.rest)
  have hkey := state.taken.stands_taken.shows (Lexer.next_quote hopen.rest)
  have hclose := state.taken.taken.stands_taken.shows
    (Lexer.next_bracket (.inr ⟨rfl, rfl⟩) hkey.rest)
  have hbehind := state.taken.taken.taken.stands_taken
  have hlt : state.taken.taken.taken.taken.token.source.length <
      state.taken.token.source.length := by
    have hlength := hbehind.length_source_le
    rw [hclose.rest] at hlength
    rw [hopen.source, hhere.rest, List.length_cons, List.length_append, List.length_cons]
    omega
  have hbegins : Begins (run (depth + 1)) context state _ _ :=
    begins_bracket ⟨⟨_, hhere.kind⟩, hfree, hlets⟩ hopen.kind hkey.kind hclose.kind hlt
  exact ⟨_, _, _, rfl, rfl, hbehind, hclose.rest, hclose.offset, rfl,
    hclose.issues.trans (hkey.issues.trans (hopen.issues.trans hhere.issues)), hbegins,
    hbegins.alone⟩

end Parser

end Bundler.Script

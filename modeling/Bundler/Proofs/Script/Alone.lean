import Bundler.Proofs.Script.Access
import Bundler.Proofs.Script.Reading.Basic

/-!
# Strings that stand alone

A string is an expression of its own where nothing goes on behind it, and then the statement that it
is may be a directive. The other way round, whatever is read as a directive was a string and the end
of a statement: no reader gives a string but by taking one token, and no reader that has gone on
behind a string gives it back.

* `Gives`: what a reader gives, and where it stands then;
* `Silent`: readers that give no string;
* `Alone`: readers that take a string and nothing else, if they give one;
* `assignment_alone`: expressions are read so;
* `State.Ends`: the end of a statement;
* `run_announces`: what stands where a directive is read;
* `statement_string`: where that stands, a directive is read.
-/

namespace Bundler.Script

/-- Whether a node is a string, or a statement that is one. -/
def Node.quotes : Node → Bool
  | .literal _ (.string ..) | .expression _ (.literal _ (.string ..)) => true
  | _ => false

namespace Parser

variable {α β σ : Type} {context : Context} {state now : State} {reader : Reader}

/-! ### What readers give -/

/-- What a reader gives, and where it stands then, if it does not stop at an issue. -/
def Gives (read : ParserM α) (state : State) (good : α → State → Prop) : Prop :=
  ∀ context a now, read context state = .ok a now → good a now

section Gives

variable {good : α → State → Prop} {last : β → State → Prop}

theorem gives_pure {a : α} (h : good a state) : Gives (pure a) state good := by
  intro context a' now heq
  cases heq
  exact h

theorem gives_failAt (offset : Nat) (text : String) : Gives (failAt offset text) state good := by
  intro context a now heq
  cases heq

theorem gives_bind_of {read : ParserM α} {next : α → ParserM β} (h : Gives read state good)
    (hnext : ∀ a now, good a now → Gives (next a) now last) : Gives (read >>= next) state last := by
  intro context b now heq
  obtain ⟨a, after, ha, hb⟩ := bind_eq_ok heq
  exact hnext a after (h _ _ _ ha) _ _ _ hb

theorem gives_bind {read : ParserM α} {next : α → ParserM β}
    (h : ∀ a now, Gives (next a) now last) : Gives (read >>= next) state last :=
  have hread : Gives read state fun _ _ => True := fun _ _ _ _ => trivial
  gives_bind_of hread fun a now _ => h a now

theorem gives_unexpected : Gives unexpected state good :=
  gives_bind fun _ _ => gives_failAt _ _

theorem gives_within {change : Context → Context} {read : ParserM α} (h : Gives read state good) :
    Gives (within change read) state good :=
  fun context => h (change context)

/-- A reader takes nothing. -/
abbrev Stays (read : ParserM α) (state : State) : Prop :=
  Gives read state fun _ now => now = state

theorem gives_stays {read : ParserM α} {next : α → ParserM β} (hread : Stays read state)
    (h : ∀ a, Gives (next a) state last) : Gives (read >>= next) state last :=
  gives_bind_of hread fun a _ hnow => hnow ▸ h a

theorem ahead_stays (look : ParserM α) : Stays (ahead look) state := by
  intro context found now h
  unfold ahead at h
  split at h <;> cases h <;> rfl

/-- A reader that only looks at where it stands. -/
theorem gives_look {read : ParserM α} {next : α → ParserM β}
    (hread : ∀ context, ∃ a, read context state = .ok a state)
    (h : ∀ a, Gives (next a) state last) : Gives (read >>= next) state last := by
  refine gives_stays (fun context a now ha => ?_) h
  obtain ⟨_, hread⟩ := hread context
  cases hread.symm.trans ha
  rfl

/-- A reader that only looks at where it stands, in whatever context. -/
theorem gives_known {read : ParserM α} {next : α → ParserM β} {a : α}
    (hread : ∀ context, read context state = .ok a state) (h : Gives (next a) state last) :
    Gives (read >>= next) state last := by
  intro context b now hb
  rw [bind_apply, hread] at hb
  exact h context b now hb

theorem gives_token {next : Token → ParserM α} (h : Gives (next state.token) state good) :
    Gives (token >>= next) state good :=
  gives_known (fun _ => rfl) h

theorem gives_forIn {ι : Type} (good : β → Prop) {step : ι → β → ParserM (ForInStep β)}
    (items : List ι) {b : β} (hb : good b)
    (hstep : ∀ i b now, good b → Gives (step i b) now fun found _ => good found.value) :
    Gives (forIn items b step) state fun b _ => good b := by
  induction items generalizing b state with
  | nil => exact gives_pure hb
  | cons i items ih =>
    rw [List.forIn_cons]
    refine gives_bind_of (hstep i b state hb) fun found now hfound => ?_
    cases found with
    | done b => exact gives_pure hfound
    | yield b => exact ih hfound

end Gives

/-! ### Readers that give no string -/

/-- A reader gives no string, wherever it starts. -/
abbrev Silent (read : ParserM Node) : Prop :=
  ∀ state, Gives read state fun node _ => node.quotes = false

/-- The readers that give a part of a kind of its own. -/
theorem silent_readers (reader : Reader) : ∀ read ∈ [parenthesized reader, arrayLiteral reader,
    objectLiteral reader, regex, making reader, superReference, reference, yielded reader,
    block reader, ifStatement reader, forStatement reader, whileStatement reader,
    doStatement reader, returnStatement reader, throwStatement reader, switchStatement reader,
    tryStatement reader, withStatement reader], Silent read := by
  simp only [List.forall_mem_cons]
  refine ⟨?_, ?_, ?_, ?_, ?_, ?_, ?_, ?_, ?_, ?_, ?_, ?_, ?_, ?_, ?_, ?_, ?_, ?_,
    List.forall_mem_nil _⟩
  all_goals
    intro state
    dsimp -zeta only [parenthesized, arrayLiteral, objectLiteral, regex, making, superReference,
      reference, yielded, block, ifStatement, forStatement, whileStatement, doStatement,
      returnStatement, throwStatement, switchStatement, tryStatement, withStatement]
    -- Whatever is read on the way, a part of that kind is made of it.
    repeat' first
      | with_reducible refine gives_bind fun _ _ => ?_
      | with_reducible exact gives_unexpected
      | with_reducible exact gives_failAt _ _
      | exact gives_pure rfl
      | split
      | dsimp only

theorem classRest_silent (start : Nat) (decorators : List Node) (nameNeeded : Bool) :
    Silent (classRest reader start decorators nameNeeded) := by
  intro state
  unfold classRest
  repeat' first
    | with_reducible refine gives_bind fun _ _ => ?_
    | with_reducible exact gives_unexpected
    | exact gives_pure rfl
    | split

theorem function_silent (start : Nat) (isAsync declares nameNeeded : Bool) :
    Silent (function reader start isAsync declares nameNeeded) := by
  intro state
  unfold function functionRest
  repeat' first
    | with_reducible refine gives_bind fun _ _ => ?_
    | with_reducible exact gives_unexpected
    | with_reducible refine gives_within ?_
    | exact gives_pure rfl
    | split

theorem functionDeclaration_silent (alone : Bool) : Silent (functionDeclaration reader alone) := by
  intro state
  unfold functionDeclaration
  refine gives_bind fun _ _ => gives_bind fun _ _ => ?_
  refine gives_bind_of (function_silent _ _ _ _ _) fun declared now hdeclared => ?_
  repeat' first
    | with_reducible refine gives_bind fun _ _ => ?_
    | exact gives_pure hdeclared
    | split

theorem importExpression_silent : Silent (importExpression reader) := by
  intro state
  unfold importExpression
  refine gives_bind fun start _ => gives_bind fun _ _ => gives_bind fun isDot _ => ?_
  split
  · refine gives_bind fun isMeta _ => ?_
    split
    · repeat' first
        | with_reducible refine gives_bind fun _ _ => ?_
        | exact gives_pure rfl
        | split
    · refine gives_bind_of (gives_forIn (fun found => ∀ node ∈ found.1, node.quotes = false)
        _ (by nofun) fun phase found now hfound => ?_) fun found now hfound => ?_
      rotate_left
      · dsimp only
        split
        next node heq => exact gives_pure (hfound node heq)
        · exact gives_failAt _ _
      · repeat' first
          | with_reducible refine gives_bind fun _ _ => ?_
          | exact gives_pure (by simp [ForInStep.value, Node.quotes])
          | split
  · repeat' with_reducible refine gives_bind fun _ _ => ?_
    exact gives_pure rfl

theorem literalToken_silent {value : Literal} (h : ∀ text written, value ≠ .string text written) :
    Silent (literalToken value) := by
  refine fun state => gives_bind fun _ _ => gives_bind fun _ _ => gives_pure ?_
  cases value with
  | string text written => exact absurd rfl (h text written)
  | _ => rfl

theorem wordExpression_silent (word : String) : Silent (wordExpression reader word) := by
  have hreference : Silent reference := silent_readers reader _ (by simp)
  intro state
  unfold wordExpression
  refine gives_bind fun start now => ?_
  split
  · repeat' with_reducible refine gives_bind fun _ _ => ?_
    exact gives_pure rfl
  · exact literalToken_silent (by nofun) _
  · exact literalToken_silent (by nofun) _
  · exact literalToken_silent (by nofun) _
  · exact silent_readers reader _ (by simp) _
  · exact silent_readers reader _ (by simp) _
  · exact importExpression_silent _
  · exact function_silent _ _ _ _ _
  · exact classRest_silent _ _ _ _
  · refine gives_bind fun _ _ => ?_
    split
    · exact gives_bind fun _ _ => function_silent _ _ _ _ _
    · exact hreference _
  · exact hreference _

/-! ### Readers that give a string alone -/

/-- A reader that stands at a string has taken it, and nothing else. -/
def State.TakesString (state : State) (node : Node) (now : State) : Prop :=
  ∃ value, state.token.kind = .string value ∧ node = state.stringNode value ∧ now = state.taken

/-- If a reader gives a string, it takes nothing else. -/
abbrev Alone (read : ParserM Node) (state : State) : Prop :=
  Gives read state fun node now => node.quotes = true → state.TakesString node now

/-- Where no string is given, all is right that has to be so only of a string. -/
theorem Gives.alone {read : ParserM Node} {good : Node → State → Prop}
    (h : Gives read state fun node _ => node.quotes = false) :
    Gives read state fun node now => node.quotes = true → good node now := by
  intro context node now hread hquotes
  rw [h _ _ _ hread] at hquotes
  cases hquotes

theorem primary_alone : Alone (primary reader) state := by
  refine gives_token ?_
  split
  · exact (literalToken_silent (by nofun) _).alone
  · exact (literalToken_silent (by nofun) _).alone
  next value hkind =>
    intro context node now hread _
    rw [literalToken_apply] at hread
    cases hread
    exact ⟨value, hkind, rfl, rfl⟩
  · exact Gives.alone (gives_bind fun _ _ => gives_bind fun _ _ => gives_pure rfl)
  · exact (silent_readers reader _ (by simp) _).alone
  · exact (silent_readers reader _ (by simp) _).alone
  · exact (silent_readers reader _ (by simp) _).alone
  · exact (silent_readers reader _ (by simp) _).alone
  · exact (silent_readers reader _ (by simp) _).alone
  · exact Gives.alone (gives_bind fun _ _ => classRest_silent _ _ _ _)
  · exact (wordExpression_silent _ _).alone
  · exact (silent_readers reader _ (by simp) _).alone
  · exact gives_unexpected

/-- What goes on behind a node: if it gives a string, that is the node, and nothing was taken. -/
abbrev Spares (read : ParserM Node) (state : State) (value : Node) : Prop :=
  Gives read state fun node now => node.quotes = true → node = value ∧ now = state

theorem Spares.mono {read : ParserM Node} {value other : Node} (h : Spares read state value)
    (heq : value.quotes = true → value = other) : Spares read state other := by
  intro context node final hread hquotes
  obtain ⟨rfl, rfl⟩ := h context node final hread hquotes
  exact ⟨heq hquotes, rfl⟩

/-- A loop that gives a string has started with it and has taken nothing. -/
theorem gives_repeated {step : σ → ParserM (σ ⊕ Node)} (value : σ → Node) {s : σ}
    (hstep : ∀ s now, Gives (step s) now fun found after =>
      match found with
      | .inl t => (value t).quotes = false
      | .inr node => node.quotes = true → node = value s ∧ after = now) :
    Spares (repeated step s) state (value s) := by
  refine gives_token ?_
  generalize state.token.source.length + 2 = fuel
  -- The induction is on the rounds of the loop. Behind a round it goes on with what is no string.
  induction fuel generalizing s state with
  | zero => exact gives_unexpected
  | succ fuel ih =>
    refine gives_bind_of (hstep s state) fun found now hfound => ?_
    cases found with
    | inl t =>
      intro context node final h hquotes
      obtain ⟨rfl, -⟩ := ih context node final h hquotes
      exact absurd hquotes (by rw [hfound]; exact Bool.false_ne_true)
    | inr result => exact gives_pure hfound

theorem optionalSuffix_silent (start : Nat) (value : Node) :
    Silent (optionalSuffix reader start value) := by
  refine fun state => gives_token ?_
  repeat' first
    | with_reducible refine gives_bind fun _ _ => ?_
    | with_reducible exact gives_failAt _ _
    | exact gives_pure rfl
    | split

theorem suffixes_spares (calls brackets : Bool) (start : Nat) (value : Node) :
    Spares (suffixes reader calls brackets start value) state value := by
  refine gives_repeated Prod.fst fun (value, inChain) now => gives_token ?_
  dsimp only
  repeat' first
    | with_reducible refine gives_bind_of (optionalSuffix_silent _ _ _) fun _ _ h => ?_
    | with_reducible refine gives_bind fun _ _ => ?_
    | exact gives_pure rfl
    | exact gives_pure (fun h => nomatch (h : false = true))
    | exact gives_pure fun _ => ⟨rfl, rfl⟩
    | exact gives_pure ‹_›
    | split

/-- Where a reader gives a string alone, so do that and what keeps the string. -/
theorem Alone.bind {read : ParserM Node} {next : Node → ParserM Node} (h : Alone read state)
    (hnext : ∀ node now, Spares (next node) now node) : Alone (read >>= next) state := by
  refine gives_bind_of h fun node now hnode => ?_
  intro context found final hread hquotes
  obtain ⟨rfl, rfl⟩ := hnext node now context found final hread hquotes
  exact hnode hquotes

theorem operand_alone (brackets : Bool) : Alone (operand reader brackets) state :=
  gives_look (fun _ => ⟨_, rfl⟩) fun _ => primary_alone.bind fun _ _ => suffixes_spares _ _ _ _

theorem postfixed_alone : Alone (postfixed reader) state := by
  refine gives_look (fun _ => ⟨_, rfl⟩) fun _ => (operand_alone true).bind fun value now =>
    gives_token ?_
  dsimp only
  split
  · exact gives_bind fun _ _ => gives_bind fun _ _ => gives_bind fun _ _ =>
      gives_pure (fun h => nomatch h)
  · exact gives_pure fun _ => ⟨rfl, rfl⟩

theorem unary_alone : Alone (unary reader) state := by
  refine gives_token ?_
  dsimp only
  split
  · exact Gives.alone (gives_bind fun _ _ => gives_bind fun _ _ => gives_bind fun _ _ =>
      gives_pure rfl)
  · split
    · exact Gives.alone (gives_bind fun _ _ => gives_bind fun _ _ => gives_bind fun _ _ =>
        gives_bind fun _ _ => gives_pure rfl)
    · refine gives_look (fun _ => ⟨_, rfl⟩) fun context => ?_
      split
      · exact Gives.alone (gives_bind fun _ _ => gives_bind fun _ _ => gives_bind fun _ _ =>
          gives_pure rfl)
      · exact postfixed_alone

theorem markPure_of_quotes {node : Node} (h : (markPure node).quotes = true) :
    markPure node = node := by
  unfold markPure at h ⊢
  split <;> first | rfl | cases h

theorem privateIn_silent (level : Level) (id : Ident) : Silent (privateIn reader level id) := by
  intro state
  unfold privateIn
  repeat' first
    | with_reducible refine gives_bind fun _ _ => ?_
    | with_reducible exact gives_unexpected
    | exact gives_pure rfl
    | split

theorem operator?_stays : Stays operator? state := by
  refine gives_token ?_
  split
  · exact gives_pure rfl
  · exact gives_pure rfl
  · exact gives_look (fun _ => ⟨_, rfl⟩) fun _ => gives_pure rfl
  · exact gives_pure rfl

/-- A mark before a string marks nothing. -/
theorem operands_spares (reader : Reader) (level : Level) (start : Nat) (isPure : Bool)
    (first : Node) :
    Spares (repeated (fun left => do
      match ← operator? with
      | none => return .inr left
      | some op =>
        if op.level ≤ level then return .inr left
        else
          advance
          let right ← reader (.binary (if op.isRightFirst then op.level - 1 else op.level))
          checkMixture op left right
          return .inl (.binary (← spanFrom start) op left right))
      (if isPure then markPure first else first)) state first := by
  refine Spares.mono (gives_repeated id fun left now => gives_stays operator?_stays fun op => ?_)
    fun hquotes => ?_
  · split
    · exact gives_pure fun _ => ⟨rfl, rfl⟩
    · split
      · exact gives_pure fun _ => ⟨rfl, rfl⟩
      · exact gives_bind fun _ _ => gives_bind fun _ _ => gives_bind fun _ _ =>
          gives_bind fun _ _ => gives_pure rfl
  · dsimp only [id] at hquotes ⊢
    split at hquotes
    next hpure => rw [if_pos hpure, markPure_of_quotes hquotes]
    next hpure => rw [if_neg hpure]

theorem binary_alone (level : Level) : Alone (binary reader level) state := by
  refine gives_look (fun _ => ⟨_, rfl⟩) fun start => gives_look (fun _ => ⟨_, rfl⟩) fun isPure =>
    gives_token ?_
  dsimp only
  split
  · exact gives_token (Alone.bind (privateIn_silent _ _ _).alone fun first _ =>
      operands_spares reader level start isPure first)
  · exact unary_alone.bind fun first _ => operands_spares reader level start isPure first

/-! ### Arrow functions and assignments -/

/-- An arrow function has been found, or none, and then nothing has been taken that matters. -/
def FindsArrow (state : State) (matters : Bool) : Option Node → State → Prop
  | some arrow, _ => arrow.quotes = false
  | none, now => matters = true → now = state

theorem arrowRest_silent (start : Nat) (isAsync : Bool) (paramsSpan : Span) (params : List Node) :
    Silent (arrowRest reader start isAsync paramsSpan params) := by
  intro state
  unfold arrowRest
  repeat' first
    | with_reducible refine gives_bind fun _ _ => ?_
    | exact gives_pure rfl
    | split

theorem arrowRest_finds {matters : Bool} (start : Nat) (isAsync : Bool) (paramsSpan : Span)
    (params : List Node) (now : State) :
    Gives (do return some (← arrowRest reader start isAsync paramsSpan params)) now
      (FindsArrow state matters) :=
  gives_bind_of (arrowRest_silent _ _ _ _ now) fun _ _ h => gives_pure h

theorem asyncArrow?_finds : Gives (asyncArrow? reader) state (FindsArrow state true) := by
  refine gives_look (fun _ => ⟨_, rfl⟩) fun start => gives_look (fun _ => ⟨_, rfl⟩) fun next => ?_
  split
  · exact gives_pure fun _ => rfl
  · refine gives_stays (ahead_stays _) fun isArrow => ?_
    split
    · exact gives_pure fun _ => rfl
    · exact gives_bind fun _ _ => gives_bind fun _ _ => arrowRest_finds _ _ _ _ _

theorem arrowAfter?_finds (start : Nat) (mayWait : Bool) (value : Node) :
    Gives (arrowAfter? reader start mayWait value) state (FindsArrow state value.quotes) := by
  refine gives_token ?_
  split
  · exact gives_pure fun _ => rfl
  · split
    · exact arrowRest_finds _ _ _ _ _
    · refine gives_bind fun found _ => ?_
      split
      · exact arrowRest_finds _ _ _ _ _
      · exact gives_pure fun h => nomatch h
    · split
      · exact gives_pure fun h => nomatch h
      · refine gives_bind fun found _ => ?_
        split
        · exact arrowRest_finds _ _ _ _ _
        · exact gives_pure fun h => nomatch h
    · exact gives_pure fun _ => rfl

theorem assignmentRest_spares (start : Nat) (value : Node) :
    Spares (assignmentRest reader start value) state value := by
  refine gives_token ?_
  repeat' first
    | with_reducible refine gives_bind fun _ _ => ?_
    | exact gives_pure (fun h => nomatch (h : false = true))
    | exact gives_pure fun _ => ⟨rfl, rfl⟩
    | split

/-- Behind what has turned out to be no arrow function, a string is read with nothing else. -/
theorem simple_alone (start : Nat) (mayWait : Bool) : Alone (do
    let value ← binary reader Level.comma
    match ← arrowAfter? reader start mayWait value with
    | some arrow => return arrow
    | none => assignmentRest reader start value) state := by
  refine (binary_alone _).bind fun value now => ?_
  refine gives_bind_of (arrowAfter?_finds _ _ _) fun found after hfound => ?_
  cases found with
  | some arrow => exact Gives.alone (gives_pure hfound)
  | none =>
    intro context node final h hquotes
    obtain ⟨rfl, rfl⟩ := assignmentRest_spares start value context node final h hquotes
    exact ⟨rfl, hfound hquotes⟩

theorem assignment_alone : Alone (assignment reader) state := by
  refine gives_token (gives_look (fun _ => ⟨_, rfl⟩) fun outer => ?_)
  split
  · exact (silent_readers reader _ (by simp) _).alone
  · dsimp only
    split
    · refine gives_look (fun _ => ⟨_, rfl⟩) fun next => ?_
      refine gives_look (fun _ => ⟨_, rfl⟩) fun mayWait => ?_
      refine gives_bind_of asyncArrow?_finds fun found now hfound => ?_
      cases found with
      | some arrow => exact Gives.alone (gives_pure hfound)
      | none =>
        obtain rfl := hfound rfl
        exact simple_alone _ _
    · exact gives_known (fun _ => rfl) (gives_known (fun _ => rfl) (simple_alone _ _))

theorem expression_alone (h : Alone (reader .assignment) state) :
    Alone (expression reader) state := by
  refine gives_look (fun _ => ⟨_, rfl⟩) fun start => h.bind fun first now =>
    gives_look (fun _ => ⟨_, rfl⟩) fun isComma => ?_
  split
  · exact gives_pure fun _ => ⟨rfl, rfl⟩
  · exact gives_bind fun _ _ => gives_bind fun _ _ => gives_pure fun h => nomatch h

/-! ### Statements -/

/-- Whether a statement may end before a token without a semicolon. -/
def mayEnd (token : Token) : Bool :=
  token.newline || token.kind == .punct .braceClose || token.kind == .eof

theorem mayEnd?_apply : mayEnd? context state = .ok (mayEnd state.token) state := rfl

/-- The end of a statement. -/
inductive State.Ends (state : State) : State → Prop
  /-- A semicolon. -/
  | mark (h : state.token.kind = .punct .semicolon) : state.Ends state.taken
  /-- A place where none is needed. -/
  | bare (hmark : state.token.kind ≠ .punct .semicolon) (h : mayEnd state.token = true) :
    state.Ends state

theorem semicolon_ends : Gives semicolon state fun _ now => state.Ends now := by
  intro context a now h
  by_cases hmark : state.token.kind = .punct .semicolon
  · simp only [semicolon, eat?, bind_apply, at?_apply, hmark] at h
    cases h
    exact .mark hmark
  · cases hend : mayEnd state.token with
    | false =>
      simp only [semicolon, eat?, bind_apply, at?_apply, mayEnd?_apply, hmark, hend, beq_iff_eq,
        if_false, pure_apply] at h
      cases h
    | true =>
      simp only [semicolon, eat?, bind_apply, at?_apply, mayEnd?_apply, hmark, hend, beq_iff_eq,
        if_false, pure_apply] at h
      cases h
      exact .bare hmark hend

theorem semicolon_apply (h : state.Ends now) : semicolon context state = .ok () now := by
  cases h with
  | mark h => simp [semicolon, eat?, h, mayEnd?_apply]
  | bare hmark h => simp [semicolon, eat?, hmark, mayEnd?_apply, h]

/-- The directive that stands between two states, at which a reader was one after another. -/
def State.directive (state now : State) : Directive where
  span := ⟨state.token.span.start, now.stop⟩
  literal := state.token.span
  inside := (state.token.written.drop 1).dropLast

/-- A reader that stands at a string has taken it and the end of the statement that it is. -/
def State.TakesDirective (state : State) (directive : Directive) (now : State) : Prop :=
  (∃ value, state.token.kind = .string value) ∧ state.taken.Ends now ∧
    directive = state.directive now

/-- If a reader gives a directive, it takes what stands where it started. -/
abbrev Announces (read : ParserM Node) (start state : State) : Prop :=
  Gives read state fun node now =>
    ∀ directive, directive? node = some directive → start.TakesDirective directive now

theorem expressionStatement_announces (h : Alone (reader .assignment) state) :
    Announces (expressionStatement reader) state state := by
  refine gives_known (fun _ => rfl) (gives_bind_of (expression_alone h) fun value now hvalue => ?_)
  split
  · refine gives_bind fun isColon _ => ?_
    split
    · exact gives_bind fun _ _ => gives_bind fun _ _ => gives_pure fun _ h => nomatch h
    · exact gives_bind fun _ _ => gives_bind fun _ _ => gives_pure fun _ h => nomatch h
  · refine gives_bind_of semicolon_ends fun _ final hends => gives_known (fun _ => rfl) ?_
    refine gives_pure fun directive h => ?_
    have hquotes : value.quotes = true := by
      unfold directive? at h
      split at h
      next heq =>
        cases heq
        rfl
      · cases h
    obtain ⟨text, hkind, rfl, rfl⟩ := hvalue hquotes
    cases h
    exact ⟨⟨text, hkind⟩, hends, rfl⟩

theorem directive?_of_quotes {node : Node} (h : node.quotes = false) : directive? node = none := by
  unfold directive?
  split
  · cases h
  · rfl

theorem Gives.announces {start : State} {read : ParserM Node}
    (h : Gives read state fun node _ => node.quotes = false) :
    Announces read start state := by
  intro context node now hread directive hdirective
  rw [directive?_of_quotes (h _ _ _ hread)] at hdirective
  cases hdirective

theorem varDeclaration_silent (start : Nat) (kind : VarKind) (inHead : Bool) :
    Silent (varDeclaration reader start kind inHead) := by
  intro state
  unfold varDeclaration
  repeat' first
    | with_reducible refine gives_bind fun _ _ => ?_
    | exact gives_pure rfl
    | split

theorem atAsyncFunction?_stays : Stays atAsyncFunction? state := by
  refine gives_known (fun _ => rfl) ?_
  split
  · exact gives_known (fun _ => rfl) (gives_pure rfl)
  · exact gives_pure rfl

theorem atLet?_stays (alone : Bool) : Stays (atLet? alone) state := by
  refine gives_known (fun _ => rfl) ?_
  split
  · exact gives_pure rfl
  · refine gives_known (fun _ => rfl) ?_
    split <;> exact gives_pure rfl

theorem atUsing?_stays (inHead : Bool) : Stays (atUsing? inHead) state := by
  refine gives_known (fun _ => rfl) ?_
  split
  · exact gives_pure rfl
  · exact gives_known (fun _ => rfl) (gives_pure rfl)

theorem atAwaitUsing?_stays (inHead : Bool) : Stays (atAwaitUsing? inHead) state := by
  refine gives_known (fun _ => rfl) (gives_look (fun _ => ⟨_, rfl⟩) fun context => ?_)
  split
  · exact gives_pure rfl
  · refine gives_known (fun _ => rfl) ?_
    split
    · exact gives_pure rfl
    · exact gives_stays (ahead_stays _) fun _ => gives_pure rfl

theorem eatWord?_stays (word : String) :
    Gives (eatWord? word) state fun found now => found = false → now = state := by
  refine gives_known (fun _ => rfl) ?_
  split
  · exact gives_bind fun _ _ => gives_pure nofun
  · exact gives_pure fun _ => rfl

/-- Where no declaration of variables starts, nothing is taken. -/
theorem varKind?_stays (alone inHead : Bool) :
    Gives (varKind? alone inHead) state fun found now => found = none → now = state := by
  have hfound {kind : VarKind} {now : State} :
      Gives (do
        advance
        return some kind) now fun found final => found = none → final = state :=
    gives_bind fun _ _ => gives_pure nofun
  refine gives_bind_of (eatWord?_stays _) fun isVar now hvar => ?_
  split
  · exact gives_pure nofun
  next hno =>
    obtain rfl := hvar (Bool.eq_false_iff.2 hno)
    refine gives_bind_of (eatWord?_stays _) fun isConst now hconst => ?_
    split
    · exact gives_pure nofun
    next hno =>
      obtain rfl := hconst (Bool.eq_false_iff.2 hno)
      refine gives_stays (atLet?_stays _) fun isLet => ?_
      split
      · exact hfound
      · refine gives_stays (atUsing?_stays _) fun isUsing => ?_
        split
        · exact hfound
        · refine gives_stays (atAwaitUsing?_stays _) fun isAwait => ?_
          split
          · exact gives_bind fun _ _ => hfound
          · exact gives_pure fun _ => rfl

theorem wordStatement_announces (h : ∀ state, Alone (reader .assignment) state) (alone : Bool)
    (start : Nat) (word : String) :
    Announces (wordStatement reader alone start word) state state := by
  have hsilent := silent_readers reader
  unfold wordStatement
  -- Of all words only `import` and a plain name start what may be an expression.
  split
  · exact (hsilent _ (by simp) _).announces
  · exact (hsilent _ (by simp) _).announces
  · exact (hsilent _ (by simp) _).announces
  · exact (hsilent _ (by simp) _).announces
  · exact gives_bind fun _ _ => gives_bind fun _ _ => gives_pure nofun
  · exact gives_bind fun _ _ => gives_bind fun _ _ => gives_pure nofun
  · exact (hsilent _ (by simp) _).announces
  · exact (hsilent _ (by simp) _).announces
  · exact (hsilent _ (by simp) _).announces
  · exact (hsilent _ (by simp) _).announces
  · exact (hsilent _ (by simp) _).announces
  · exact gives_bind fun _ _ => gives_bind fun _ _ => gives_bind fun _ _ => gives_pure nofun
  · exact (functionDeclaration_silent _ _).announces
  · refine Gives.announces ?_
    split
    · exact gives_bind fun _ _ => classRest_silent _ _ _ _
    · exact classRest_silent _ _ _ _
  · exact gives_failAt _ _
  · refine gives_look (fun _ => ⟨_, rfl⟩) fun found => ?_
    split
    · exact expressionStatement_announces (h _)
    · exact gives_failAt _ _
  · refine gives_stays atAsyncFunction?_stays fun found => ?_
    split
    · exact (functionDeclaration_silent _ _).announces
    · refine gives_bind_of (varKind?_stays _ _) fun found now hfound => ?_
      split
      · refine Gives.announces ?_
        repeat' first
          | with_reducible refine gives_bind fun _ _ => ?_
          | exact varDeclaration_silent _ _ _ _
          | split
      · obtain rfl := hfound rfl
        exact expressionStatement_announces (h _)

theorem statement_announces (h : ∀ state, Alone (reader .assignment) state) (alone : Bool) :
    Announces (statement reader alone) state state := by
  refine gives_token ?_
  dsimp only
  split
  · exact (silent_readers reader _ (by simp) _).announces
  · exact gives_bind fun _ _ => gives_pure nofun
  · refine Gives.announces (gives_bind fun _ _ => ?_)
    repeat' first
      | with_reducible refine gives_bind fun _ _ => ?_
      | exact classRest_silent _ _ _ _
      | split
  · exact wordStatement_announces h _ _ _
  · exact expressionStatement_announces (h _)

theorem run_alone (depth : Nat) (state : State) : Alone (run depth .assignment) state := by
  cases depth with
  | zero => exact gives_unexpected
  | succ depth => exact assignment_alone

/-- Where a statement is read that is a directive, a string and the end of a statement stand. -/
theorem run_announces (depth : Nat) (alone : Bool) :
    Announces (run depth (.statement alone)) state state := by
  cases depth with
  | zero => exact gives_unexpected
  | succ depth => exact statement_announces (run_alone depth) alone

/-- Where a string and the end of a statement stand, the statement is read that is a directive. -/
theorem statement_string {depth : Nat} {alone : Bool} {value : StringValue}
    (h : state.token.kind = .string value) (hend : endsValue state.taken.token.kind = true)
    (hends : state.taken.Ends now) :
    ∃ node, run (depth + 2) (.statement alone) context state = .ok node now ∧
      directive? node = some (state.directive now) := by
  refine ⟨.expression ⟨state.token.span.start, now.stop⟩ (state.stringNode value), ?_, rfl⟩
  have hrun : run (depth + 2) (.statement alone) = statement (run (depth + 1)) alone := rfl
  simp [hrun, statement, h, expressionStatement, expression_string h hend, State.stringNode,
    semicolon_apply hends]

end Parser

end Bundler.Script

import Bundler.Proofs.Script.Reading.Function
import Bundler.Script.Parser.Expression

/-!
# Where expressions stand

Expressions go forward with their readers, and start where they do. An expression
that turns out to be a pattern stands where it stood.
-/

namespace Bundler.Script.Parser

open Std.Do

set_option mvcgen.warning false

variable [Whole] {reader : Reader} {state : State}

/-- An expression that was read from one state to another. -/
structure Starts (node : Node) (state now : State) : Prop extends Spans node state now where
  /-- It starts at the first token. -/
  start_eq : node.start = state.token.span.start
  /-- It takes a token. -/
  start_le_stop : state.token.span.start ≤ now.stop

attribute [grind cases, grind intro] Starts

/-! ### Lists -/

@[spec] theorem expression_reads (hreader : reader.Keeps) :
    Reads (expression reader) state fun node now => Starts node state now := by
  unfold expression
  have hr := hreader.reads
  have hitems : ∀ first state, Reads (repeated (fun items => do
      if ← eat? .comma then return .inl ((← reader .assignment) :: items)
      else return .inr items.reverse) [first]) state fun found now => ∀ lo,
        Row lo first.idents state.stop → lo ≤ state.token.span.start →
          Row lo (Node.identsOf found) now.stop := by
    intro first state
    apply repeated_reads fun acc now => ∀ lo, Row lo first.idents state.stop →
      lo ≤ state.token.span.start → Row lo (Node.identsOf acc.reverse) now.stop
    · intro _
      grind -linarith
    · intro now acc hn hi
      mvcgen [hr]
      all_goals grind -linarith
  mvcgen [hr, hitems]
  all_goals grind -linarith [Node.idents, Node.span, Node.start]

@[spec] theorem element_reads (hreader : reader.Keeps) :
    Reads (element reader) state fun node now => Starts node state now := by
  unfold element
  have hr := hreader.reads
  mvcgen [hr]
  all_goals grind -linarith [Node.idents, Node.span, Node.start]

@[spec] theorem noteComma_reads (start : Nat) (comma : Bool) :
    Reads (noteComma start comma) state fun _ now =>
      now.token = state.token ∧ now.stop = state.stop := by
  unfold noteComma
  have hnote := fun state => @modify_reads _ state
    (fun state => { state with commas := start :: state.commas })
    (fun _ => rfl) (fun _ => rfl) (fun _ => rfl)
  mvcgen [hnote]
  all_goals grind -linarith

/-! ### Literals -/

/-- A token is read again as another one. -/
theorem again_reads {again : Lexer → Token → Token × Lexer}
    (h : ∀ (lexer : Lexer) (token : Token),
      (lexer.back token).Gives (again lexer token).1 (again lexer token).2) :
    Reads (modify fun state =>
      let (token, lexer) := again state.lexer state.token
      { state with token, lexer }) state fun _ now =>
        now.token = (again state.lexer state.token).1 ∧ now.stop = state.stop := by
  rw [reads_iff]
  intro hp context a now hr
  obtain ⟨-, rfl⟩ := EStateM.Result.ok.inj hr
  have hg := h state.lexer state.token
  have hle : state.token.span.start ≤ (again state.lexer state.token).1.span.start := hg.offset_le
  exact ⟨⟨⟨Nat.le_trans hp.stop_le hle, hg.placed, hg.stop_eq,
    hp.left.starts.trans hg.starts, hg.stops, hg.punct_lt, hp.left.stop_mark⟩, hle, Nat.le_refl _⟩,
    rfl, rfl⟩

@[spec] theorem regex_reads : Reads regex state fun node now => Starts node state now := by
  unfold regex
  have hagain := fun state => @again_reads _ state Lexer.asRegex Lexer.asRegex_gives
  mvcgen [hagain]
  all_goals grind -linarith [Node.idents, Node.span, Node.start, Lexer.start_asRegex]

@[spec] theorem templateAgain_reads : Reads templateAgain state fun _ now =>
    now.stop = state.stop := by
  unfold templateAgain
  have hagain := fun state => @again_reads _ state Lexer.asTemplate Lexer.asTemplate_gives
  mvcgen [hagain]
  all_goals grind -linarith

@[spec] theorem template_reads (hreader : reader.Keeps) (isTagged : Bool) :
    Reads (template reader isTagged) state fun found now =>
      state.token.span.start ≤ now.stop ∧
        Row state.token.span.start (Node.identsOf found.2) now.stop := by
  unfold template
  have hvalue := fun state => withIn_reads (@expression_reads _ reader state hreader)
  apply repeated_reads fun acc now =>
    Row state.token.span.start (Node.identsOf acc.2.reverse) now.stop
  · intro _
    grind -linarith
  · intro now acc hn hi
    mvcgen [hvalue]
    all_goals grind -linarith

@[spec] theorem arrayLiteral_reads (hreader : reader.Keeps) :
    Reads (arrayLiteral reader) state fun node now => Starts node state now := by
  unfold arrayLiteral
  have hitem : ∀ state, Reads (do
      if ← at? .comma then return .hole (← here) else element reader) state
      fun node now => Spans node state now := by
    intro state
    mvcgen
    all_goals grind -linarith [Node.idents, Node.span, Node.start]
  have hlist := fun state => withIn_reads
    (@commaList_reads _ state .bracketClose _ hitem)
  mvcgen [hlist]
  all_goals grind -linarith [Node.idents, Node.span, Node.start]

@[spec] theorem objectMember_reads (hreader : reader.Keeps) :
    Reads (objectMember reader) state fun node now => Spans node state now := by
  unfold objectMember
  have hr := hreader.reads
  have hcover := fun start state => @modify_reads _ state
    (fun state => { state with covers := start :: state.covers })
    (fun _ => rfl) (fun _ => rfl) (fun _ => rfl)
  mvcgen [hr, hcover]
  all_goals grind -linarith [Node.idents, Node.span, Node.start]

@[spec] theorem objectLiteral_reads (hreader : reader.Keeps) :
    Reads (objectLiteral reader) state fun node now => Starts node state now := by
  unfold objectLiteral
  have hlist := fun state => withIn_reads
    (@commaList_reads _ state .braceClose _ fun _ => objectMember_reads hreader)
  mvcgen [hlist]
  all_goals grind -linarith [Node.idents, Node.span, Node.start]

/-! ### Primary expressions -/

@[spec] theorem parenthesized_reads (hreader : reader.Keeps) :
    Reads (parenthesized reader) state fun node now => Starts node state now := by
  unfold parenthesized
  have hlist := fun state => withIn_reads (@commaList_reads _ state .parenClose _
    fun _ => reads_mono (element_reads hreader) fun _ _ _ h => h.toSpans)
  mvcgen [hlist]
  all_goals grind -linarith [Node.idents, Node.span, Node.start]

@[spec] theorem reference_reads :
    Reads reference state fun node now => Starts node state now := by
  unfold reference
  mvcgen
  all_goals grind -linarith [Node.idents, Node.span, Node.start]

@[spec] theorem arguments_reads (hreader : reader.Keeps) :
    Reads (arguments reader) state fun found now =>
      Row state.token.span.start (Node.identsOf found.1) now.stop := by
  rw [reads_iff]
  intro hp context found now h
  obtain ⟨_, opened, ho, h⟩ := bind_eq_ok h
  have hopened := (reads_iff.1 (expect_reads .parenOpen) hp context _ opened ho).1
  have hlist := withIn_reads (@commaList_reads _ opened .parenClose _
    fun _ => reads_mono (element_reads hreader) fun _ _ _ h => h.toSpans)
  have hnow := reads_iff.1 hlist hopened.placed context found now h
  grind -linarith

@[spec] theorem checkImportArguments_reads (start : Nat) (given : List Node) :
    Reads (checkImportArguments start given) state fun _ now =>
      now.token = state.token ∧ now.stop = state.stop := by
  unfold checkImportArguments
  mvcgen
  all_goals grind -linarith [Node.idents, Node.span, Node.start]

@[spec] theorem importExpression_reads (hreader : reader.Keeps) :
    Reads (importExpression reader) state fun node now => Starts node state now := by
  unfold importExpression
  simp only [List.forIn_cons, List.forIn_nil]
  mvcgen
  all_goals grind -linarith [Node.idents, Node.span, Node.start]

@[spec] theorem making_reads (hreader : reader.Keeps) :
    Reads (making reader) state fun node now => Starts node state now := by
  unfold making
  have hr := hreader.reads
  mvcgen [hr]
  all_goals grind -linarith [Node.idents, Node.span, Node.start]

@[spec] theorem superReference_reads :
    Reads superReference state fun node now => Starts node state now := by
  unfold superReference
  mvcgen
  all_goals grind -linarith [Node.idents, Node.span, Node.start]

@[spec] theorem literalToken_reads (value : Literal) :
    Reads (literalToken value) state fun node now => Starts node state now := by
  unfold literalToken
  mvcgen
  all_goals grind -linarith [Node.idents, Node.span, Node.start]

@[spec] theorem wordExpression_reads (hreader : reader.Keeps) (word : String) :
    Reads (wordExpression reader word) state fun node now => Starts node state now := by
  unfold wordExpression
  mvcgen
  all_goals grind -linarith [Node.idents, Node.span, Node.start]

@[spec] theorem primary_reads (hreader : reader.Keeps) :
    Reads (primary reader) state fun node now => Starts node state now := by
  unfold primary
  mvcgen
  all_goals grind -linarith [Node.idents, Node.span, Node.start]

/-! ### Properties and calls -/

@[spec] theorem propertyName_reads :
    Reads propertyName state fun node now => Spans node state now := by
  unfold propertyName
  mvcgen
  all_goals grind -linarith [Node.idents, Node.span, Node.start]

@[spec] theorem checkPrivate_reads (owner property : Node) :
    Reads (checkPrivate owner property) state fun _ now =>
      now.token = state.token ∧ now.stop = state.stop := by
  unfold checkPrivate
  mvcgen
  all_goals grind -linarith [Node.idents, Node.span, Node.start]

@[spec] theorem bracketed_reads (hreader : reader.Keeps) :
    Reads (bracketed reader) state fun node now => Spans node state now := by
  unfold bracketed
  have hvalue := fun state => withIn_reads (@expression_reads _ reader state hreader)
  mvcgen [hvalue]
  all_goals grind -linarith [Node.idents, Node.span, Node.start]

/-- A value with what follows it. -/
structure Extends (start : Nat) (value node : Node) (state now : State) : Prop where
  /-- The names of the value come first. -/
  chain : ∀ lo, Row lo value.idents state.stop → lo ≤ state.token.span.start →
    Row lo node.idents now.stop
  /-- It starts where the value does. -/
  start_eq : value.start = start → node.start = start
  /-- It ends before the next token. -/
  stop_le : value.span.stop ≤ state.token.span.start → node.span.stop ≤ now.token.span.start
  /-- It ends behind the value, unless nothing follows. -/
  stop_ge : node = value ∨ state.stop ≤ node.span.stop
  /-- It is no function, unless nothing follows. -/
  func : ∀ span shape id paramsSpan params code,
    node = .func span shape id paramsSpan params code → node = value

attribute [grind cases, grind intro] Extends

theorem Extends.refl (start : Nat) (value : Node) :
    Extends start value value state state :=
  ⟨fun _ h _ => h, id, id, .inl rfl, fun _ _ _ _ _ _ _ => rfl⟩

grind_pattern Extends.refl => Extends start value value state state

@[spec] theorem optionalSuffix_reads (hreader : reader.Keeps) (start : Nat) (value : Node) :
    Reads (optionalSuffix reader start value) state fun node now =>
      Extends start value node state now := by
  unfold optionalSuffix
  mvcgen
  all_goals grind -linarith [Node.idents, Node.span, Node.start]

@[spec] theorem suffixes_reads (hreader : reader.Keeps) (calls brackets : Bool) (start : Nat)
    (value : Node) :
    Reads (suffixes reader calls brackets start value) state fun node now =>
      Extends start value node state now := by
  unfold suffixes
  apply repeated_reads fun acc now => Extends start value acc.1 state now
  · intro _
    grind -linarith
  · intro now acc hn hi
    mvcgen
    all_goals grind -linarith [Node.idents, Node.span, Node.start]

@[spec] theorem operand_reads (hreader : reader.Keeps) (brackets : Bool) :
    Reads (operand reader brackets) state fun node now => Starts node state now := by
  unfold operand
  mvcgen
  all_goals grind -linarith [Node.idents, Node.span, Node.start]

@[spec] theorem made_reads (hreader : reader.Keeps) :
    Reads (made reader) state fun node now => Starts node state now := by
  unfold made
  mvcgen
  all_goals grind -linarith [Node.idents, Node.span, Node.start]

/-! ### Operators -/

@[spec] theorem simpleTarget_reads (node : Node) :
    Reads (simpleTarget node) state fun target now =>
      target.idents = node.idents ∧ now.token = state.token ∧ now.stop = state.stop := by
  unfold simpleTarget
  mvcgen
  all_goals grind -linarith [Node.idents_bare]

@[spec] theorem postfixed_reads (hreader : reader.Keeps) :
    Reads (postfixed reader) state fun node now => Starts node state now := by
  unfold postfixed
  mvcgen
  all_goals grind -linarith [Node.idents, Node.span, Node.start]

@[spec] theorem unary_reads (hreader : reader.Keeps) :
    Reads (unary reader) state fun node now => Starts node state now := by
  unfold unary
  have hr := hreader.reads
  mvcgen [hr]
  all_goals grind -linarith [Node.idents, Node.span, Node.start]

@[spec] theorem operator?_reads : Reads operator? state fun _ now => now = state := by
  unfold operator?
  mvcgen
  all_goals grind -linarith

@[spec] theorem checkMixture_reads (op : BinaryOp) (left right : Node) :
    Reads (checkMixture op left right) state fun _ now =>
      now.token = state.token ∧ now.stop = state.stop := by
  unfold checkMixture
  mvcgen
  all_goals grind -linarith

omit [Whole] in
/-- What is marked as without effects stays what it is. -/
theorem markPure_eq (node : Node) : (markPure node).idents = node.idents ∧
    (markPure node).span = node.span ∧ ∀ span shape id paramsSpan params code,
      markPure node = .func span shape id paramsSpan params code → markPure node = node := by
  fun_induction markPure node
  all_goals grind [Node.idents, Node.span]

theorem Starts.markPure {node : Node} {now : State} (h : Starts node state now) :
    Starts (markPure node) state now := by
  obtain ⟨hidents, hspan, hfunc⟩ := markPure_eq node
  have hstart : (Parser.markPure node).start = node.start := congrArg Span.start hspan
  refine ⟨⟨?_, ?_, ?_, ?_, ?_⟩, ?_, h.start_le_stop⟩
  · rw [hidents]
    exact h.chain
  · rw [hstart]
    exact h.start_le
  · rw [hspan]
    exact h.stop_le
  · rw [hstart, hspan]
    exact h.filled
  · intro span shape paramsSpan params code heq
    have hsame := hfunc _ _ _ _ _ _ heq
    rw [hsame] at heq ⊢
    exact h.params _ _ _ _ _ heq
  · rw [hstart]
    exact h.start_eq

grind_pattern Starts.markPure => Parser.markPure node, Starts node state now

@[spec] theorem atPureMark?_reads : Reads atPureMark? state fun _ now => now = state := by
  unfold atPureMark?
  mvcgen
  all_goals grind -linarith

@[spec] theorem privateIn_reads (hreader : reader.Keeps) (level : Level) (id : Ident) :
    Reads (privateIn reader level id) state fun node now =>
      id.span = state.token.span → Starts node state now := by
  unfold privateIn
  have hr := hreader.reads
  mvcgen [hr]
  all_goals grind -linarith [Node.idents, Node.span, Node.start]

@[spec] theorem binary_reads (hreader : reader.Keeps) (level : Level) :
    Reads (binary reader level) state fun node now => Starts node state now := by
  unfold binary
  have hr := hreader.reads
  refine reads_bind here_reads ?_
  rintro _ state - ⟨rfl, rfl⟩
  refine reads_bind atPureMark?_reads ?_
  rintro isPure state - rfl
  refine reads_bind token_reads ?_
  rintro _ state - ⟨rfl, rfl⟩
  extract_lets operands
  have hoperands : ∀ first now, now.Follows state → Starts first state now →
      Reads (operands first) now fun node after => Starts node state after := by
    intro first now hn hfirst
    apply repeated_reads fun acc after => Starts acc state after
    · intro _
      grind -linarith
    · intro after acc hafter hi
      mvcgen [hr]
      all_goals grind -linarith [Node.idents, Node.span, Node.start]
  split
  · refine reads_bind token_reads ?_
    rintro _ state - ⟨rfl, rfl⟩
    exact reads_bind (privateIn_reads hreader _ _) fun first now hn hf =>
      hoperands first now hn (hf rfl)
  · exact reads_bind (unary_reads hreader) hoperands

/-! ### Assignments -/

@[spec] theorem arrowRest_reads (hreader : reader.Keeps) (start : Nat) (isAsync : Bool)
    (paramsSpan : Span) (params : List Node) :
    Reads (arrowRest reader start isAsync paramsSpan params) state fun node now =>
      ∃ span shape code, node = .func span shape none paramsSpan params code ∧
        shape.isArrow = true ∧ span.start = start ∧ span.stop ≤ now.token.span.start ∧
        state.token.span.start ≤ span.stop ∧
        Row state.token.span.start code.idents now.stop := by
  unfold arrowRest
  have hr := hreader.reads
  have hbody := fun change state => @within_reads _ state _ change _ _
    (functionBody_reads hreader)
  mvcgen [hr, hbody]
  all_goals grind -linarith [Node.idents, Node.span, Node.start]

omit [Whole] in
@[grind =] theorem identsOf_listed (node : Node) : Node.identsOf (listed node) = node.idents := by
  cases node <;> simp [listed, Node.idents]

/-- An arrow function whose parameters were read as an expression. -/
structure Turns (start : Nat) (value node : Node) (state now : State) : Prop where
  /-- The names of the value that are still there come first. -/
  chain : ∀ lo, Row lo value.idents state.stop → lo ≤ state.token.span.start →
    Row lo node.idents now.stop
  /-- It starts where it is said to. -/
  start_eq : node.start = start
  /-- It ends before the next token. -/
  stop_le : node.span.stop ≤ now.token.span.start
  /-- It does not end before it starts. -/
  filled : state.token.span.start ≤ node.span.stop
  /-- It is an arrow function. -/
  func : ∀ span shape id paramsSpan params code,
    node = .func span shape id paramsSpan params code → shape.isArrow = true

attribute [grind cases, grind intro] Turns

@[spec] theorem arrowAfter?_reads (hreader : reader.Keeps) (start : Nat) (mayWait : Bool)
    (value : Node) :
    Reads (arrowAfter? reader start mayWait value) state fun found now =>
      (found = none → now.token = state.token ∧ now.stop = state.stop) ∧
      ∀ node, found = some node → Turns start value node state now := by
  unfold arrowAfter?
  mvcgen
  all_goals grind -linarith [Node.idents, Node.span, Node.start]

@[spec] theorem yielded_reads (hreader : reader.Keeps) :
    Reads (yielded reader) state fun node now => Starts node state now := by
  unfold yielded
  have hr := hreader.reads
  mvcgen [hr]
  all_goals grind -linarith [Node.idents, Node.span, Node.start]

@[spec] theorem assignmentRest_reads (hreader : reader.Keeps) (start : Nat) (value : Node) :
    Reads (assignmentRest reader start value) state fun node now =>
      Extends start value node state now := by
  unfold assignmentRest
  have hr := hreader.reads
  mvcgen [hr]
  all_goals grind -linarith [Node.idents, Node.span, Node.start]

@[spec] theorem asyncArrow?_reads (hreader : reader.Keeps) :
    Reads (asyncArrow? reader) state fun found now =>
      (found = none → now = state) ∧ ∀ node, found = some node → Starts node state now := by
  unfold asyncArrow?
  have hid := fun change state => @within_reads _ state _ change _ _ ident_reads
  mvcgen [hid]
  all_goals grind -linarith [Node.idents, Node.span, Node.start]

@[spec] theorem assignment_reads (hreader : reader.Keeps) :
    Reads (assignment reader) state fun node now => Starts node state now := by
  unfold assignment
  mvcgen
  all_goals grind -linarith [Node.idents, Node.span, Node.start]

end Bundler.Script.Parser

import Bundler.Proofs.Script.Reading.Pattern
import Bundler.Script.Parser.Function

/-!
# Where functions and classes stand

Functions, methods and classes go forward with their readers.
-/

namespace Bundler.Script.Parser

open Std.Do

set_option mvcgen.warning false

variable [Whole] {reader : Reader} {state : State}

/-! ### Bodies -/

@[spec] theorem statementsToBrace_reads (hreader : reader.Keeps) :
    Reads (statementsToBrace reader) state fun found now =>
      Row state.token.span.start (Node.identsOf found) now.stop := by
  unfold statementsToBrace
  have hr := hreader.reads
  refine gathered_reads fun now acc hn hi => ?_
  mvcgen [hr]
  all_goals grind -linarith

omit [Whole] in
/-- Directives have no names. -/
@[grind =] theorem identsOf_splitDirectives (nodes : List Node) :
    Node.identsOf (splitDirectives nodes).2 = Node.identsOf nodes := by
  fun_induction splitDirectives nodes with
  | case1 => rfl
  | case2 node more directive hd directives statements _ ih =>
    unfold directive? at hd
    grind -linarith [Node.idents]
  | case3 => rfl

@[spec] theorem functionBody_reads (hreader : reader.Keeps) :
    Reads (functionBody reader) state fun node now => Spans node state now := by
  unfold functionBody
  mvcgen
  all_goals grind -linarith [Node.idents, Node.span, Node.start]

/-! ### Functions -/

@[spec] theorem functionRest_reads (hreader : reader.Keeps) (start : Nat) (shape : FunctionShape)
    (id : Option Ident) :
    Reads (functionRest reader start shape id) state fun node now =>
      node.start = start ∧ node.span.stop ≤ now.token.span.start ∧ IsMark node.span.stop ∧
      state.token.span.start ≤ node.span.stop ∧
      ∃ span paramsSpan params code, node = .func span shape id paramsSpan params code ∧
        paramsSpan.start = state.token.span.start ∧ paramsSpan.start ≤ now.stop ∧
        Row state.token.span.start (Node.identsOf params ++ code.idents) now.stop := by
  unfold functionRest
  apply within_reads
  mvcgen
  all_goals grind -linarith [Node.idents, Node.span, Node.start]

@[spec] theorem function_reads (hreader : reader.Keeps) (start : Nat)
    (isAsync declares nameNeeded : Bool) :
    Reads (function reader start isAsync declares nameNeeded) state fun node now =>
      node.start = start ∧ node.span.stop ≤ now.token.span.start ∧ IsMark node.span.stop ∧
      state.token.span.start ≤ node.span.stop ∧
      Row state.token.span.start node.idents now.stop ∧
      ∃ span shape id paramsSpan params code, node = .func span shape id paramsSpan params code ∧
        state.token.span.start ≤ paramsSpan.start ∧ paramsSpan.start ≤ now.stop ∧
        IsMark paramsSpan.start ∧
        Row paramsSpan.start (Node.identsOf params ++ code.idents) now.stop := by
  unfold function
  have hid := fun change state => @within_reads _ state _ change _ _ ident_reads
  mvcgen [hid]
  all_goals grind -linarith [Node.idents]

@[spec] theorem atAsyncFunction?_reads :
    Reads atAsyncFunction? state fun _ now => now = state := by
  unfold atAsyncFunction?
  mvcgen
  all_goals grind -linarith

/-! ### Methods -/

@[spec] theorem atMark?_reads (word : String) (follows : Token → Bool) :
    Reads (atMark? word follows) state fun _ now => now = state := by
  unfold atMark?
  mvcgen
  all_goals grind -linarith

@[spec] theorem methodMarks_reads : Reads methodMarks state fun _ _ => True := by
  unfold methodMarks
  mvcgen
  all_goals grind -linarith

@[spec] theorem checkAccessor_reads (kind : MethodKind) (value : Node) :
    Reads (checkAccessor kind value) state fun _ now =>
      now.token = state.token ∧ now.stop = state.stop := by
  unfold checkAccessor
  mvcgen
  all_goals grind -linarith

@[spec] theorem methodValue_reads (hreader : reader.Keeps) (marks : MethodMarks) :
    Reads (methodValue reader marks) state fun node now => Spans node state now := by
  unfold methodValue
  mvcgen
  all_goals grind -linarith [Node.idents, Node.span, Node.start]

/-! ### Classes -/

@[spec] theorem decorators_reads (hreader : reader.Keeps) :
    Reads (decorators reader) state fun found now =>
      Row state.token.span.start (Node.identsOf found) now.stop := by
  unfold decorators
  have hr := hreader.reads
  refine gathered_reads fun now acc hn hi => ?_
  mvcgen [hr]
  all_goals grind -linarith

@[spec] theorem elementKey_reads (hreader : reader.Keeps) :
    Reads (elementKey reader) state fun node now => Spans node state now ∧
      state.token.span.start ≤ now.stop := by
  unfold elementKey
  mvcgen
  all_goals grind -linarith [Node.idents, Node.span, Node.start]

@[spec] theorem elementKind_reads (isStatic : Bool) (marks : MethodMarks) (key : Node) :
    Reads (elementKind isStatic marks key) state fun _ now =>
      now.token = state.token ∧ now.stop = state.stop := by
  unfold elementKind
  mvcgen
  all_goals grind -linarith

@[spec] theorem checkField_reads (isStatic : Bool) (key : Node) :
    Reads (checkField isStatic key) state fun _ now =>
      now.token = state.token ∧ now.stop = state.stop := by
  unfold checkField
  mvcgen
  all_goals grind -linarith

@[spec] theorem classElement_reads (hreader : reader.Keeps) :
    Reads (classElement reader) state fun node now => Spans node state now := by
  unfold classElement
  have hr := hreader.reads
  refine reads_bind here_reads ?_
  rintro _ state - ⟨rfl, rfl⟩
  refine reads_bind (decorators_reads hreader) fun decorators now hn hdecorators => ?_
  refine reads_bind here_reads ?_
  rintro _ now - ⟨rfl, rfl⟩
  refine reads_bind (atMark?_reads _ _) ?_
  rintro isStatic now - rfl
  extract_lets block rest opened
  have hblock : ∀ u after, after.Follows now → now.token.span.start ≤ after.stop →
      Reads (block u) after fun node after => Spans node state after := by
    intro u after ha hstart
    have hstatements := fun change state => @within_reads _ state _ change _ _
      (statementsToBrace_reads hreader)
    apply reads_of
    intro goal hgoal
    dsimp only [block]
    clear * - hn ha hstart hstatements hgoal
    mvcgen [hstatements]
    all_goals grind -linarith [Node.idents, Node.span, Node.start]
  clear_value block
  have hrest : ∀ isBlock after, after.Follows now →
      (isBlock = true → now.token.span.start ≤ after.stop) →
      Reads (rest isBlock) after fun node after => Spans node state after := by
    intro isBlock after ha hstart
    apply reads_of
    intro goal hgoal
    dsimp only [rest]
    clear * - hreader hr hn hdecorators ha hstart hblock hgoal
    mvcgen [hr, hblock]
    all_goals grind -linarith [Node.idents, Node.span, Node.start]
  clear_value rest
  apply reads_of
  intro goal hgoal
  dsimp only [opened]
  clear * - hn hrest hgoal
  mvcgen [hrest]
  all_goals grind -linarith

/-- A class stands behind its decorators. -/
@[spec] theorem classRest_reads (hreader : reader.Keeps) (start : Nat) (decorators : List Node)
    (nameNeeded : Bool) :
    Reads (classRest reader start decorators nameNeeded) state fun node now =>
      node.start = start ∧ node.span.stop ≤ now.token.span.start ∧ IsMark node.span.stop ∧
      state.token.span.start ≤ node.span.stop ∧ state.token.span.start ≤ now.stop ∧
      ∃ span id parent bodySpan elements,
        node = .classDef span decorators id parent bodySpan elements ∧
        Row state.token.span.start
          (id.toList ++ (Node.identsIn parent ++ Node.identsOf elements)) now.stop := by
  unfold classRest
  have hr := hreader.reads
  have helements : ∀ state, Reads (repeated (fun read => do
      if ← eat? .braceClose then return .inr read.reverse
      else if ← eat? .semicolon then return .inl read
      else return .inl ((← classElement reader) :: read)) []) state fun found now =>
        Row state.token.span.start (Node.identsOf found) now.stop := by
    intro state
    refine gathered_reads fun now acc hn hi => ?_
    mvcgen
    all_goals grind -linarith
  mvcgen [hr, helements]
  all_goals grind -linarith [Node.idents, Node.span, Node.start]

end Bundler.Script.Parser

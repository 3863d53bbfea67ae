import Bundler.Proofs.Script.Reading.Expression
import Bundler.Script.Parser.Statement

/-!
# Where statements stand

Statements and declarations go forward with their readers.
-/

namespace Bundler.Script.Parser

open Std.Do

set_option mvcgen.warning false

variable [Whole] {reader : Reader} {state : State}

/-- A statement that was read from one state to another. -/
structure Closes (node : Node) (state now : State) : Prop extends Spans node state now where
  /-- It ends between two characters. -/
  stop_mark : IsMark node.span.stop

attribute [grind cases, grind intro] Closes

@[spec] theorem condition_reads (hreader : reader.Keeps) :
    Reads (condition reader) state fun node now => Spans node state now := by
  unfold condition
  have hvalue := fun state => withIn_reads (@expression_reads _ reader state hreader)
  mvcgen [hvalue]
  all_goals grind -linarith [Node.idents, Node.span, Node.start]

@[spec] theorem block_reads (hreader : reader.Keeps) :
    Reads (block reader) state fun node now => Closes node state now := by
  unfold block
  mvcgen
  all_goals grind -linarith [Node.idents, Node.span, Node.start]

@[spec] theorem atEnd?_reads : Reads atEnd? state fun _ now => now = state := by
  unfold atEnd?
  mvcgen
  all_goals grind -linarith

/-! ### Declarations of variables -/

@[spec] theorem checkValue_reads (kind : VarKind) (declarator : Node) :
    Reads (checkValue kind declarator) state fun _ now =>
      now.token = state.token ∧ now.stop = state.stop := by
  unfold checkValue
  mvcgen
  all_goals grind -linarith

@[spec] theorem varDeclaration_reads (hreader : reader.Keeps) (start : Nat) (kind : VarKind)
    (inHead : Bool) :
    Reads (varDeclaration reader start kind inHead) state fun node now =>
      ∃ span declarators, node = .varDeclaration span kind declarators ∧ span.start = start ∧
        span.stop ≤ now.token.span.start ∧ state.stop ≤ span.stop ∧ IsMark span.stop ∧
        Row state.token.span.start (Node.identsOf declarators) now.stop := by
  unfold varDeclaration
  have hr := hreader.reads
  have hdeclarators : ∀ state, Reads (repeated (fun read => do
      let start ← here
      let target ← reader .binding
      let value ← do
        if ← eat? .assign then pure (some (← reader .assignment)) else pure none
      let declarator := Node.declarator (← spanFrom start) target value
      if !inHead then checkValue kind declarator
      if ← eat? .comma then return .inl (declarator :: read)
      else return .inr (declarator :: read).reverse) []) state fun found now =>
        Row state.token.span.start (Node.identsOf found) now.stop := by
    intro state
    refine gathered_reads fun now acc hn hi => ?_
    mvcgen [hr]
    all_goals grind -linarith [Node.idents]
  mvcgen [hdeclarators]
  all_goals grind -linarith [Node.idents, Node.span, Node.start]

@[spec] theorem atLet?_reads (alone : Bool) : Reads (atLet? alone) state fun _ now =>
    now = state := by
  unfold atLet?
  mvcgen
  all_goals grind -linarith

@[spec] theorem atUsing?_reads (inHead : Bool) : Reads (atUsing? inHead) state fun _ now =>
    now = state := by
  unfold atUsing?
  mvcgen
  all_goals grind -linarith

@[spec] theorem atAwaitUsing?_reads (inHead : Bool) :
    Reads (atAwaitUsing? inHead) state fun _ now => now = state := by
  unfold atAwaitUsing?
  mvcgen
  all_goals grind -linarith

@[spec] theorem varKind?_reads (alone inHead : Bool) :
    Reads (varKind? alone inHead) state fun found now =>
      (found = none → now = state) ∧ (found ≠ none → state.token.span.start ≤ now.stop) := by
  unfold varKind?
  mvcgen
  all_goals grind -linarith

/-! ### Loops -/

@[spec] theorem forHead_reads (hreader : reader.Keeps) :
    Reads (forHead reader) state fun found now =>
      Row state.token.span.start (Node.identsIn found) now.stop := by
  unfold forHead
  refine reads_bind (at?_reads _) ?_
  rintro _ state - ⟨rfl, -⟩
  refine reads_bind (at?_reads _) ?_
  rintro _ state - ⟨rfl, -⟩
  split
  · mvcgen
    all_goals grind -linarith
  · refine reads_bind here_reads ?_
    rintro _ state - ⟨rfl, rfl⟩
    apply within_reads
    mvcgen
    all_goals grind -linarith [Node.idents]

@[spec] theorem checkLoopVariables_reads (start : Nat) (isOf : Bool) (kind : VarKind)
    (declarators : List Node) :
    Reads (checkLoopVariables start isOf kind declarators) state fun _ now =>
      now.token = state.token ∧ now.stop = state.stop := by
  unfold checkLoopVariables
  mvcgen
  all_goals grind -linarith

@[spec] theorem loopTarget_reads (isOf isAwait : Bool) (first : Token) (head : Node) :
    Reads (loopTarget isOf isAwait first head) state fun target now =>
      target.idents = head.idents ∧ now.token = state.token ∧ now.stop = state.stop := by
  unfold loopTarget
  mvcgen
  all_goals grind -linarith

@[spec] theorem forStatement_reads (hreader : reader.Keeps) :
    Reads (forStatement reader) state fun node now => Closes node state now := by
  unfold forStatement
  have hr := hreader.reads
  refine reads_bind here_reads ?_
  rintro _ state - ⟨rfl, rfl⟩
  refine reads_bind (expectWord_reads _) fun _ now hn _ => ?_
  refine reads_bind token_reads ?_
  rintro _ now - ⟨rfl, rfl⟩
  refine reads_bind (eatWord?_reads _) fun isAwait now hn _ => ?_
  refine reads_bind read_reads ?_
  rintro _ now - rfl
  extract_lets loop
  have hloop : ∀ u now, now.Follows state →
      Reads (loop u) now fun node after => Closes node state after := by
    intro u now hn
    refine reads_bind (expect_reads _) fun _ opened ho _ => ?_
    refine reads_bind token_reads ?_
    rintro _ opened - ⟨rfl, rfl⟩
    refine reads_bind (forHead_reads hreader) fun head headed hh hhead => ?_
    have hhead := hhead.weaken (hn.trans ho).start_le (Nat.le_refl _)
    have hn := hn.trans (ho.trans hh)
    -- The rest is cut where its branches meet again, the last part first. Each part is known by
    -- what it gives before the one that goes on to it is opened.
    extract_lets step test checked plain
    have hstep : ∀ test now, now.Follows state →
        Row state.token.span.start (Node.identsIn head ++ Node.identsIn test) now.stop →
        Reads (step test) now fun node after => Closes node state after := by
      intro test now hn hc
      apply reads_of
      intro goal hgoal
      dsimp only [step]
      clear * - hreader hr hn hc hgoal
      mvcgen [hr]
      all_goals grind -linarith [Node.idents, Node.span, Node.start]
    clear_value step
    have htest : ∀ u now, now.Follows state →
        Row state.token.span.start (Node.identsIn head) now.stop →
        Reads (test u) now fun node after => Closes node state after := by
      intro u now hn hc
      apply reads_of
      intro goal hgoal
      dsimp only [test]
      clear * - hreader hstep hn hc hgoal
      mvcgen [hstep]
      all_goals grind -linarith [Node.idents, Node.span, Node.start]
    clear_value test
    have hchecked : ∀ u now, now.Follows state →
        Row state.token.span.start (Node.identsIn head) now.stop →
        Reads (checked u) now fun node after => Closes node state after := by
      intro u now hn hc
      apply reads_of
      intro goal hgoal
      dsimp only [checked]
      clear * - htest hn hc hgoal
      mvcgen [htest, forIn_reads, -Spec.forIn_list]
      all_goals grind -linarith [Node.idents, Node.span, Node.start]
    clear_value checked
    have hplain : ∀ u now, now.Follows state →
        Row state.token.span.start (Node.identsIn head) now.stop →
        Reads (plain u) now fun node after => Closes node state after := by
      intro u now hn hc
      apply reads_of
      intro goal hgoal
      dsimp only [plain]
      clear * - hchecked hn hc hgoal
      mvcgen [hchecked]
      all_goals grind -linarith [Node.idents, Node.span, Node.start]
    clear_value plain
    apply reads_of
    intro goal hgoal
    clear * - hreader hr hn hhead hplain hgoal
    mvcgen [hr, hplain]
    all_goals grind -linarith [Node.idents, Node.span, Node.start]
  clear_value loop
  apply reads_of
  intro goal hgoal
  mvcgen [hloop]
  all_goals grind -linarith [Node.idents, Node.span, Node.start]

/-! ### Statements by their first word -/

@[spec] theorem ifStatement_reads (hreader : reader.Keeps) :
    Reads (ifStatement reader) state fun node now => Closes node state now := by
  unfold ifStatement
  have hr := hreader.reads
  mvcgen [hr]
  all_goals grind -linarith [Node.idents, Node.span, Node.start]

@[spec] theorem doStatement_reads (hreader : reader.Keeps) :
    Reads (doStatement reader) state fun node now => Closes node state now := by
  unfold doStatement
  have hr := hreader.reads
  mvcgen [hr]
  all_goals grind -linarith [Node.idents, Node.span, Node.start]

@[spec] theorem whileStatement_reads (hreader : reader.Keeps) :
    Reads (whileStatement reader) state fun node now => Closes node state now := by
  unfold whileStatement
  have hr := hreader.reads
  mvcgen [hr]
  all_goals grind -linarith [Node.idents, Node.span, Node.start]

@[spec] theorem labelReference_reads (word : String) :
    Reads (labelReference word) state fun _ now => state.token.span.start ≤ now.stop := by
  unfold labelReference
  mvcgen
  all_goals grind -linarith

@[spec] theorem returnStatement_reads (hreader : reader.Keeps) :
    Reads (returnStatement reader) state fun node now => Closes node state now := by
  unfold returnStatement
  mvcgen
  all_goals grind -linarith [Node.idents, Node.span, Node.start]

@[spec] theorem throwStatement_reads (hreader : reader.Keeps) :
    Reads (throwStatement reader) state fun node now => Closes node state now := by
  unfold throwStatement
  mvcgen
  all_goals grind -linarith [Node.idents, Node.span, Node.start]

@[spec] theorem switchCase_reads (hreader : reader.Keeps) :
    Reads (switchCase reader) state fun node now => Closes node state now := by
  unfold switchCase
  have hr := hreader.reads
  have hstatements : ∀ state, Reads (repeated (fun read => do
      if (← at? .braceClose) || (← atWord? "case") || (← atWord? "default") then
        return .inr read.reverse
      else return .inl ((← reader (.statement false)) :: read)) []) state fun found now =>
        Row state.token.span.start (Node.identsOf found) now.stop := by
    intro state
    refine gathered_reads fun now acc hn hi => ?_
    mvcgen [hr]
    all_goals grind -linarith
  mvcgen [hstatements]
  all_goals grind -linarith [Node.idents, Node.span, Node.start]

@[spec] theorem switchStatement_reads (hreader : reader.Keeps) :
    Reads (switchStatement reader) state fun node now => Closes node state now := by
  unfold switchStatement
  have hcases : ∀ state, Reads (repeated (fun read => do
      if ← eat? .braceClose then return .inr read.reverse
      else return .inl ((← switchCase reader) :: read)) []) state fun found now =>
        Row state.token.span.start (Node.identsOf found) now.stop := by
    intro state
    refine gathered_reads fun now acc hn hi => ?_
    mvcgen
    all_goals grind -linarith
  mvcgen [hcases]
  all_goals grind -linarith [Node.idents, Node.span, Node.start]

@[spec] theorem catchClause_reads (hreader : reader.Keeps) :
    Reads (catchClause reader) state fun node now => Closes node state now := by
  unfold catchClause
  have hr := hreader.reads
  mvcgen [hr]
  all_goals grind -linarith [Node.idents, Node.span, Node.start]

@[spec] theorem tryStatement_reads (hreader : reader.Keeps) :
    Reads (tryStatement reader) state fun node now => Closes node state now := by
  unfold tryStatement
  have hr := hreader.reads
  mvcgen [hr]
  all_goals grind -linarith [Node.idents, Node.span, Node.start]

@[spec] theorem withStatement_reads (hreader : reader.Keeps) :
    Reads (withStatement reader) state fun node now => Closes node state now := by
  unfold withStatement
  have hr := hreader.reads
  mvcgen [hr]
  all_goals grind -linarith [Node.idents, Node.span, Node.start]

@[spec] theorem expressionStatement_reads (hreader : reader.Keeps) :
    Reads (expressionStatement reader) state fun node now => Closes node state now := by
  unfold expressionStatement
  have hr := hreader.reads
  mvcgen [hr]
  all_goals grind -linarith [Node.idents, Node.span, Node.start]

@[spec] theorem functionDeclaration_reads (hreader : reader.Keeps) (alone : Bool) :
    Reads (functionDeclaration reader alone) state fun node now => Closes node state now ∧
      node.start = state.token.span.start := by
  unfold functionDeclaration
  mvcgen
  all_goals grind -linarith [Node.idents, Node.span, Node.start]

@[spec] theorem atImportExpression?_reads :
    Reads atImportExpression? state fun _ now => now = state := by
  unfold atImportExpression?
  mvcgen
  all_goals grind -linarith

@[spec] theorem wordStatement_reads (hreader : reader.Keeps) (alone : Bool) (start : Nat)
    (word : String) :
    Reads (wordStatement reader alone start word) state fun node now =>
      start = state.token.span.start → Closes node state now := by
  unfold wordStatement
  mvcgen
  all_goals grind -linarith [Node.idents, Node.span, Node.start]

@[spec] theorem statement_reads (hreader : reader.Keeps) (alone : Bool) :
    Reads (statement reader alone) state fun node now => Closes node state now := by
  unfold statement
  mvcgen
  all_goals grind -linarith [Node.idents, Node.span, Node.start]

end Bundler.Script.Parser

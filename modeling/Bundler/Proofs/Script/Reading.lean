import Bundler.Proofs.Script.Reading.Module
import Bundler.Script.Parser

/-!
# Where a whole script stands

All readers go forward, however deep they are nested, so the statements at the top of a
script stand one after another, behind its directives, and so do all names in them. None of them
starts or ends within a character.

* `run_keeps`: every reader gives parts of the script it reads;
* `Program.Stands`: where the statements of a script stand;
* `Program.Marks`: they stand between characters of a text;
* `Program.read_stands`, `Program.read_marks`: a script stands where it was read.
-/

namespace Bundler.Script

open Bundler.Script.Parser

namespace Parser

variable [Whole]

/-- Every reader gives parts of the script it reads, however deep it may nest. -/
theorem run_keeps (depth : Nat) : (run depth).Keeps := by
  induction depth with
  | zero =>
    refine ⟨fun part state => ?_⟩
    exact reads_mono unexpected_reads fun _ _ _ h => h.elim
  | succ depth ih =>
    refine ⟨fun part state => ?_⟩
    have hstarts {read : ParserM Node} (h : Reads read state fun node now => Starts node state now) :
        Reads read state fun node now => Spans node state now ∧
          (part.startsHere = true →
            node.start = state.token.span.start ∧ state.token.span.start ≤ now.stop) :=
      reads_mono h fun _ _ _ h => ⟨h.toSpans, fun _ => ⟨h.start_eq, h.start_le_stop⟩⟩
    cases part with
    | assignment => exact hstarts (assignment_reads ih)
    | unary => exact hstarts (unary_reads ih)
    | binary level => exact hstarts (binary_reads ih level)
    | made => exact hstarts (made_reads ih)
    | operand brackets => exact hstarts (operand_reads ih brackets)
    | statement alone =>
      exact reads_mono (statement_reads ih alone) fun _ _ _ h => ⟨h.toSpans, nofun⟩
    | binding => exact reads_mono (binding_reads ih) fun _ _ _ h => ⟨h.1, fun _ => h.2⟩

/-- A statement that is read ends between two characters. -/
theorem run_closes (depth : Nat) (state : State) :
    Reads (run depth (.statement false)) state fun node now => Closes node state now := by
  cases depth with
  | zero => exact reads_mono unexpected_reads fun _ _ _ h => h.elim
  | succ depth => exact statement_reads (run_keeps depth) false

end Parser

/-- Where the statements at the top of a script stand: behind its first line and its directives,
    one after another. -/
structure Program.Stands (program : Program) : Prop where
  /-- The statements stand somewhere, and so do the directives before them. -/
  body : ∃ first lo hi, first ≤ lo ∧ StandIn lo program.body hi ∧
    (∀ span ∈ program.hashbang, span.start = 0 ∧ span.stop ≤ first) ∧
    ∀ directive ∈ program.directives, first ≤ directive.span.start ∧
      directive.span.start ≤ directive.span.stop ∧ directive.span.stop ≤ lo
  /-- The directives stand one after another. -/
  directives : program.directives.Pairwise fun one other => one.span.stop ≤ other.span.start

/-- The statements of a script, its directives and its first line stand between characters of a
    text. -/
structure Program.Marks (text : List Char) (program : Program) : Prop where
  /-- Names start and end there. -/
  idents : ∀ statement ∈ program.body, ∀ id ∈ statement.idents,
    Text.Mark text id.span.start ∧ Text.Mark text id.span.stop
  /-- Statements are cut there. -/
  cuts : ∀ statement ∈ program.body, ∀ cut ∈ statement.cuts, Text.Mark text cut
  /-- Directives end there. -/
  directives : ∀ directive ∈ program.directives, Text.Mark text directive.span.stop
  /-- The first line ends there. -/
  hashbang : ∀ span ∈ program.hashbang, Text.Mark text span.stop

theorem span_of_directive? {node : Node} {directive : Directive}
    (h : directive? node = some directive) : directive.span = node.span := by
  unfold directive? at h
  split at h
  · cases h
    rfl
  · cases h

/-- The statements behind the directives stand behind them. -/
theorem StandIn.splitTop {lo hi : Nat} {body : List TopLevel} (h : StandIn lo body hi) :
    ∃ mid, lo ≤ mid ∧ StandIn mid (splitTop body).2 hi ∧
      (∀ directive ∈ (splitTop body).1, lo ≤ directive.span.start ∧
        directive.span.start ≤ directive.span.stop ∧ directive.span.stop ≤ mid) ∧
      (splitTop body).1.Pairwise fun one other => one.span.stop ≤ other.span.start := by
  fun_induction Parser.splitTop body generalizing lo with
  | case1 => exact ⟨lo, Nat.le_refl _, h, List.forall_mem_nil _, .nil⟩
  | case2 more node directive hd directives statements hsplit ih =>
    obtain ⟨next, hnext, hfirst, hmore⟩ := h
    obtain ⟨mid, hmid, hin, hdirectives, hordered⟩ := ih hmore
    rw [hsplit] at hin hdirectives hordered
    obtain ⟨hstart, hfilled, hstop⟩ := hfirst.span_bounds _ rfl
    rw [← span_of_directive? hd] at hstop
    refine ⟨mid, Nat.le_trans hnext hmid, hin, ?_, .cons ?_ hordered⟩
    · intro other hother
      rcases List.mem_cons.1 hother with rfl | hother
      · rw [Node.start, ← span_of_directive? hd] at hstart hfilled
        exact ⟨hstart, hfilled, Nat.le_trans hstop hmid⟩
      · have hbounds := hdirectives other hother
        exact ⟨Nat.le_trans hnext hbounds.1, hbounds.2⟩
    · exact fun other hother => Nat.le_trans hstop (hdirectives other hother).1
  | case3 | case4 => exact ⟨lo, Nat.le_refl _, h, List.forall_mem_nil _, .nil⟩

theorem splitTop_marks [Whole] {body : List TopLevel}
    (h : ∀ statement ∈ body, ∃ lo hi, statement.Found lo hi) :
    (∀ directive ∈ (splitTop body).1, IsMark directive.span.stop) ∧
      ∀ statement ∈ (splitTop body).2, ∃ lo hi, statement.Found lo hi := by
  fun_induction Parser.splitTop body with
  | case1 => exact ⟨List.forall_mem_nil _, List.forall_mem_nil _⟩
  | case2 more node directive hd directives statements hsplit ih =>
    obtain ⟨hdirectives, hstatements⟩ := ih fun statement hmem => h statement (.tail _ hmem)
    rw [hsplit] at hdirectives hstatements
    refine ⟨fun other hother => ?_, hstatements⟩
    rcases List.mem_cons.1 hother with rfl | hother
    · obtain ⟨lo, hi, hfound⟩ := h _ (.head _)
      rw [span_of_directive? hd]
      exact hfound.stop_marked node rfl
    · exact hdirectives other hother
  | case3 | case4 => exact ⟨List.forall_mem_nil _, h⟩

/-- A script stands where it was read, between characters of its text. -/
theorem Program.read_found {goal : Goal} {text : String} {program : Program}
    (h : Program.read goal text = .ok program) : program.Stands ∧ program.Marks text.toList := by
  unfold Program.read at h
  have hline : text.toList = (runnerLine text.toList).1.getD [] ++ (runnerLine text.toList).2 := by
    unfold runnerLine
    split
    · exact List.takeWhile_append_dropWhile.symm
    · rfl
  generalize runnerLine text.toList = start at h hline
  obtain ⟨line, rest⟩ := start
  dsimp only at h hline
  let _ : Whole := ⟨text.toList⟩
  have hskip : Text.Goes 0 text.toList ((Lexer.start goal rest).skip (line.getD []) rest).offset
      ((Lexer.start goal rest).skip (line.getD []) rest).rest := ⟨_, hline, rfl⟩
  have hlexer : Text.byteLength (line.getD []) ≤
    ((Lexer.start goal rest).skip (line.getD []) rest).offset := Nat.le_add_left _ _
  generalize (Lexer.start goal rest).skip (line.getD []) rest = lexer at h hlexer hskip
  -- The first token is read from the start of the text, behind the line that says what runs it.
  have hplaced : (startState lexer).Placed :=
    have hnext := lexer.next_gives
    ⟨Nat.zero_le _, hnext.placed, hnext.stop_eq,
      hskip.trans hnext.starts, hnext.stops, hnext.punct_lt, Text.mark_zero _⟩
  have hstart : lexer.offset ≤ (startState lexer).token.span.start := lexer.next_gives.offset_le
  split at h
  next statements state hread =>
    split at h
    · cases h
    · obtain ⟨-, hin⟩ :=
        reads_iff.1 (topLevels_reads (run_keeps _) (run_closes _)) hplaced _ _ _ hread
      obtain ⟨mid, hmid, hbody, hdirectives, hordered⟩ := hin.stand.splitTop
      obtain ⟨hmarks, hfound⟩ := splitTop_marks hin.found
      cases h
      refine ⟨⟨⟨_, mid, _, hmid, hbody, ?_, hdirectives⟩, hordered⟩, ?_, ?_, hmarks, ?_⟩
      · intro span hspan
        obtain ⟨text, rfl, rfl⟩ := Option.map_eq_some_iff.1 hspan
        exact ⟨rfl, Nat.le_trans hlexer hstart⟩
      · intro statement hmem
        obtain ⟨_, _, hfound⟩ := hfound statement hmem
        exact hfound.marked
      · intro statement hmem
        obtain ⟨_, _, hfound⟩ := hfound statement hmem
        exact hfound.cuts_marked
      · intro span hspan
        obtain ⟨text, rfl, rfl⟩ := Option.map_eq_some_iff.1 hspan
        exact ⟨rest, _, hline, Nat.zero_add _⟩
  next =>
    split at h
    · cases h
    · cases h

/-- A script stands where it was read. -/
theorem Program.read_stands {goal : Goal} {text : String} {program : Program}
    (h : Program.read goal text = .ok program) : program.Stands :=
  (read_found h).1

/-- A script stands between characters of its text. -/
theorem Program.read_marks {goal : Goal} {text : String} {program : Program}
    (h : Program.read goal text = .ok program) : program.Marks text.toList :=
  (read_found h).2

end Bundler.Script

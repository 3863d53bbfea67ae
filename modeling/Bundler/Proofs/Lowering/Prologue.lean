import Bundler.Proofs.Lowering.Edited
import Bundler.Proofs.Lowering.Requires
import Bundler.Proofs.Script.Directives

/-!
# What comes before the statements

A module that exports names of its own sets them up before its first statement, so that a module
that imports it while it is loaded sees them. The prologue that does so stands behind the directives
of the module and before all else that is left of it: whatever is changed at the same offset is tried
later, but for the first line, which is taken away. It starts with a line end, so the last directive
ends before it even without a semicolon, and the lowered module starts with the same directives.

* `TopLevel.localNames`: the names under which a statement exports by getters in the prologue;
* `Plan.written_exports`: the getters in the prologue are those of all statements;
* `Plan.exists_inOrder`: what is tried before the prologue;
* `Led`: a lowered module that sets its exports up before its statements;
* `led_of_lower`: a module with such exports is lowered so.
-/

namespace Bundler

open Script Lowering

namespace Script

/-- Whether a default export stays a declaration: a function, or a class that has a name. -/
def Node.staysDeclared : Node → Bool
  | .func _ shape _ _ _ _ => !shape.isArrow
  | .classDef _ _ (some _) _ _ _ => true
  | _ => false

namespace TopLevel

/-- The names under which a statement exports what the module itself declares or imports, by
    getters. -/
def localNames (analysis : Analysis) : TopLevel → List String
  | .exportDeclaration _ declaration => Plan.declaredIn analysis declaration.span
  | .exportNames _ specifiers none => specifiers.map (·.exported.name)
  | .exportDefault _ value => if value.staysDeclared then [defaultName] else []
  | _ => []

end TopLevel

/-- The names under which a module exports what it declares or imports, by getters. -/
def Program.localNames (program : Program) : List String :=
  program.body.flatMap
    (TopLevel.localNames (Analysis.ofOccurrences (program.occurrences .module)))

namespace TopLevel

/-- The offset at which a statement starts: at its first word, decorators before an export aside. -/
def start : TopLevel → Nat
  | .statement node => node.start
  | .importFrom span _ _ | .exportDeclaration span _ | .exportNames span _ _
  | .exportDefault span _ | .exportAll span _ _ => span.start

theorem Stands.start_le {lo hi : Nat} {statement : TopLevel} (h : statement.Stands lo hi) :
    lo ≤ statement.start := by
  cases statement with
  | statement node => exact (h.span_bounds node rfl).1
  | _ => exact (h.bounds _ (.head _)).1

end TopLevel

end Script

namespace Lowering

namespace Plan

/-! ### The exports in the prologue -/

theorem importsOf_exports (analysis : Analysis) (plan : Plan) (body : List TopLevel) :
    (importsOf analysis plan body).exports = plan.exports := by
  induction body generalizing plan with
  | nil => rfl
  | cons statement more ih =>
    cases statement with
    | importFrom span specifiers source =>
      refine (ih _).trans ?_
      have hexports := exports_require plan source.value.toText
      unfold importFrom
      split
      · exact hexports
      · split <;> exact hexports
    | _ => exact ih plan

theorem exportDefault_exports (source : List Char) (plan : Plan) (span : Span) (value : Node) :
    (exportDefault source plan span value).exports.map (·.1) = plan.exports.map (·.1) ++
      if value.staysDeclared then [TopLevel.defaultName] else [] := by
  unfold exportDefault
  split
  · exact List.map_append
  · exact List.map_append
  · exact List.map_append
  next hnamed hfunction hclass =>
    have hstays : value.staysDeclared = false := by
      unfold Node.staysDeclared
      split
      next span shape id paramsSpan params code =>
        obtain ⟨isAsync, isGenerator, isArrow⟩ := shape
        cases isArrow with
        | true => rfl
        | false =>
          cases id with
          | none => exact absurd rfl (hfunction _ _ _ _ _ _)
          | some id => exact absurd rfl (hnamed _ _ _ _ _ _ _)
      next => exact absurd rfl (hclass _ _ _ _ _ _)
      · rfl
    have hvalue : (exportValue source plan span value).exports = plan.exports := by
      unfold exportValue
      split <;> rfl
    rw [hvalue, hstays]
    exact (List.append_nil _).symm

theorem exportsOf_exports (subject : Subject) (but : List String) (plan : Plan)
    (body : List TopLevel) :
    (exportsOf subject but plan body).exports.map (·.1) =
      plan.exports.map (·.1) ++ body.flatMap (TopLevel.localNames subject.analysis) := by
  induction body generalizing plan with
  | nil => exact (List.append_nil _).symm
  | cons statement more ih =>
    have hsame {after : Plan} (hexports : after.exports = plan.exports) :
        after.exports.map (·.1) = plan.exports.map (·.1) ++ [] := by
      rw [hexports, List.append_nil]
    rw [List.flatMap_cons, ← List.append_assoc]
    refine (ih _).trans (congrArg (· ++ _) ?_)
    cases statement with
    | statement | importFrom => exact hsame rfl
    | exportDeclaration span declaration =>
      refine (exportAs_foldl (fun name => name) (fun _ name => name) _ _).2.2.trans ?_
      rw [List.map_id']
      rfl
    | exportNames span specifiers source =>
      cases source with
      | none => exact (exportAs_foldl (fun one : ExportSpecifier => one.exported.name) _ _ _).2.2
      | some source => exact hsame (exports_require plan source.value.toText)
    | exportDefault span value => exact exportDefault_exports _ _ _ _
    | exportAll span exported source => exact hsame (exports_require plan source.value.toText)

/-- The prologue has a getter for each name under which a statement exports so, in order. -/
theorem written_exports (subject : Subject) :
    (written subject).exports.map (·.1) =
      subject.program.body.flatMap (TopLevel.localNames subject.analysis) := by
  have hopening : (opening subject).exports = [] := by
    rw [opening_eq]
    rfl
  rw [written, exportsOf_exports, importsOf_exports, hopening]
  rfl

/-! ### What stands before the prologue -/

/-- All directives end before the prologue. -/
theorem stop_le_prologueStart {program : Program} (hstands : program.Stands)
    {directive : Script.Directive} (h : directive ∈ program.directives) : directive.span.stop ≤ prologueStart program := by
  obtain ⟨first, lo, hi, -, -, -, hdirectives⟩ := hstands.body
  obtain ⟨last, hlast⟩ := Option.isSome_iff_exists.1
    (List.getLast?_isSome.2 (List.ne_nil_of_mem h))
  obtain ⟨others, heq⟩ := List.getLast?_eq_some_iff.1 hlast
  have hstart : prologueStart program = last.span.stop := by
    rw [prologueStart, hlast]
    rfl
  rw [hstart]
  have hordered := hstands.directives
  rw [heq] at h hordered
  rcases List.mem_append.1 h with h | h
  · have hfilled := hdirectives last (List.mem_of_getLast? hlast)
    exact Nat.le_trans ((List.pairwise_append.1 hordered).2.2 _ h last (.head _)) hfilled.2.1
  · rw [List.mem_singleton.1 h]

section

variable {subject : Subject} (hstands : subject.program.Stands)
  (hanalysis : subject.analysis = Analysis.ofOccurrences (subject.program.occurrences .module))
  (hexports : (written subject).exports ≠ [])

include hstands hanalysis hexports

/-- Before the prologue nothing is tried but that the first line is taken away, and that is tried
    before it unless the prologue stands at the very start. -/
theorem inOrder_prologue : ∃ before later, (make subject).inOrder =
      before ++ (⟨prologueStart subject.program, prologueStart subject.program⟩,
        .prologue (written subject).exports) :: later ∧
      before.Subperm (opening subject).changes ∧
      (∀ one ∈ before, one.1.stop ≤ prologueStart subject.program) ∧
      ∀ one ∈ (opening subject).changes, one ∉ before → prologueStart subject.program = 0 := by
  obtain ⟨parts, hadds, hchanges⟩ := make_changes subject
  obtain ⟨first, lo, hi, hfirst, hbody, hhashbang, hdirectives⟩ := hstands.body
  have hbehind := fun one => @behind_of_mem subject hanalysis lo hi hbody parts hadds
    (written subject) one
  obtain ⟨hstart, hline⟩ := prologueStart_bounds hdirectives
  have hopening := opening_bounds hhashbang
  rw [prologueOf, if_neg (by simpa using hexports), List.append_assoc (opening subject).changes]
    at hchanges
  obtain ⟨before, later, hsplit, hperm, hbefore, hlater⟩ := exists_inOrder _ hchanges
  -- Nothing else can come before: it ends behind the place of the prologue.
  have hmem : ∀ one ∈ before, one ∈ (opening subject).changes := by
    intro one hone
    have hle := hbefore one hone
    refine (List.mem_append.1 (hperm.subset (List.mem_append_left _ hone))).resolve_right ?_
    intro hmem
    have := hbehind one hmem
    dsimp only at hle
    omega
  refine ⟨before, later, hsplit, ?_, ?_, ?_⟩
  -- All changes but that of the first line end behind the start of the statements.
  · have hleft := hperm.filter fun one => decide (one.1.stop ≤ lo)
    have hkept : ∀ one ∈ (opening subject).changes, decide (one.1.stop ≤ lo) = true := by
      intro one hone
      have := hopening one hone
      simp only [decide_eq_true_eq]
      omega
    have hnone : (parts.flatten ++ usesOf subject.source (written subject)
        subject.analysis.found.reverse).filter (fun one => decide (one.1.stop ≤ lo)) = [] := by
      refine List.filter_eq_nil_iff.2 fun one hone => ?_
      have := hbehind one hone
      simp only [decide_eq_true_eq]
      omega
    rw [List.filter_append, List.filter_append (opening subject).changes, hnone,
      List.append_nil, List.filter_eq_self.2 hkept,
      List.filter_eq_self.2 fun one hone => hkept one (hmem one hone)] at hleft
    exact (List.sublist_append_left _ _).subperm.trans hleft.subperm
  · intro one hone
    have hle := hbefore one hone
    have := hopening one (hmem one hone)
    dsimp only at hle
    omega
  · intro one hone hnot
    have hmem := (List.mem_append.1 (hperm.mem_iff.2 (List.mem_append_left _ hone))).resolve_left hnot
    have hle := hlater one hmem
    have := (hopening one hone).1
    dsimp only at hle
    omega

/-- The pieces of a lowered module before its prologue, the prologue, and those behind it. -/
theorem exists_pieces {source : List Char} (hmarks : subject.program.Marks source) :
    ∃ line directives front later,
      (make subject).pieces source = front ++
        .changed ⟨prologueStart subject.program, prologueStart subject.program⟩ []
          (.prologue (written subject).exports) :: later ∧
      front.flatMap Piece.before = line ++ directives ∧ front.flatMap Piece.after = directives ∧
      calls front = [] ∧ Text.byteLength (line ++ directives) = prologueStart subject.program ∧
      (subject.program.directives ≠ [] →
        Text.byteLength line = (subject.program.hashbang.map (·.stop)).getD 0) := by
  obtain ⟨before, later, hsplit, hbefore, hstop, hline⟩ :=
    inOrder_prologue hstands hanalysis hexports
  obtain ⟨first, lo, hi, -, -, hhashbang, hdirectives⟩ := hstands.body
  obtain ⟨rest, read, rfl, hread⟩ := mark_prologueStart hmarks
  rw [Nat.zero_add] at hread
  rw [opening_eq] at hbefore hline
  have hcases : before = [] ∨ ∃ span ∈ subject.program.hashbang, before = [(span, .erased)] := by
    cases hhash : subject.program.hashbang with
    | none =>
      rw [hhash] at hbefore
      exact .inl (List.subperm_nil.1 hbefore)
    | some span =>
      rw [hhash] at hbefore
      exact (List.subperm_singleton_iff.1 hbefore).imp_right fun h => ⟨span, rfl, h⟩
  -- Either no first line is taken away before the prologue, or just that one is.
  rcases hcases with rfl | ⟨span, hspan, rfl⟩
  · refine ⟨[], read, [.kept read], piecesFrom (prologueStart subject.program) rest later, ?_,
      by simp [Piece.before], by simp [Piece.after], rfl, hread, ?_⟩
    · rw [pieces, hsplit]
      exact piecesFrom_insert _ later ((Nat.zero_add _).trans hread)
    · intro hne
      cases hhash : subject.program.hashbang with
      | none => rfl
      | some span =>
        -- A first line that is left for later puts the prologue at the very start, so
        -- there is no directive.
        have hzero := hline (span, .erased) (by rw [hhash]; exact .head _) List.not_mem_nil
        obtain ⟨directive, hmem⟩ := List.exists_mem_of_ne_nil _ hne
        have hends := stop_le_prologueStart hstands hmem
        have hbounds := hdirectives directive hmem
        have hspan := hhashbang span hhash
        simp only [Text.byteLength_nil, Option.map_some, Option.getD_some]
        omega
  · obtain ⟨left, hgoes⟩ := hmarks.hashbang span hspan
    obtain ⟨between, rfl, hbetween⟩ := hgoes.between ⟨read, rfl, (Nat.zero_add _).trans hread⟩
      (hstop _ (.head _))
    obtain ⟨line, heq, hlinestop⟩ := hgoes
    rw [← List.append_assoc, List.append_left_inj] at heq
    subst heq
    rw [Nat.zero_add] at hlinestop
    refine ⟨line, between, [.kept [], .changed span line .erased, .kept between],
      piecesFrom (prologueStart subject.program) rest later, ?_, by simp [Piece.before],
      by simp [Piece.after, Change.text], rfl, hread, fun _ => ?_⟩
    · have hstart := (hhashbang span hspan).1
      rw [pieces, hsplit, List.append_assoc]
      refine (@piecesFrom_cons 0 [] line _ span _ _ hstart.symm (by omega)).trans ?_
      exact congrArg (_ :: _ :: ·) (piecesFrom_insert _ later hbetween)
    · rw [hspan]
      exact hlinestop

end

end Plan

theorem prefix_intercalate {α : Type} (between text : List α) (texts : List (List α)) :
    text <+: between.intercalate (text :: texts) := by
  cases texts with
  | nil => simp [List.intercalate]
  | cons next texts =>
    rw [List.intercalate_cons_cons, List.append_assoc]
    exact List.prefix_append _ _

theorem Statement.mark_prefix : "Object.".toList <+: Statement.mark.text.toList := by
  decide

/-- The prologue starts with a name in a line of its own. -/
theorem Change.exists_prologue (exports : List (String × String)) :
    ∃ rest, (Change.prologue exports).text.toList = '\n' :: ("Object".toList ++ '.' :: rest) := by
  rw [text, String.toList_append, String.toList_intercalate, List.map_cons, List.map_cons,
    String.toList_append]
  obtain ⟨rest, hrest⟩ := (Statement.mark_prefix.trans (List.prefix_append _ _)).trans
    (prefix_intercalate _ _ _)
  exact ⟨rest, congrArg ('\n' :: ·) hrest.symm⟩

end Lowering

/-- A module and the lowered module, which sets the exports of its own up before its statements. -/
structure Led (source code : String) (program : Program) (exports : List (String × String))
    (line opening : List Char) (later : List Piece) : Prop where
  /-- The tree is that of the module. -/
  read : Program.read .module source = .ok program
  /-- Read in whatever context, the lowered module starts with the directives of the module and
      with no others, and they stand where they stood but for the first line. -/
  opens : ∀ context, (Parser.leadingDirectives context code).map
    (·.later (Text.byteLength line)) = program.directives
  /-- The module starts with what is taken away, and goes on up to the end of its directives. -/
  source : source.toList = line ++ opening ++ later.flatMap Piece.before
  /-- The lowered module starts with the text up to the end of the directives and the prologue. -/
  code : code.toList =
    opening ++ (Change.prologue exports).text.toList ++ later.flatMap Piece.after
  /-- The prologue stands at the end of the last directive. -/
  stop : Text.byteLength (line ++ opening) =
    (program.directives.getLast?.map (·.span.stop)).getD 0
  /-- Before directives the first line is taken away, and nothing else. -/
  line_stop : program.directives ≠ [] →
    Text.byteLength line = (program.hashbang.map (·.stop)).getD 0
  /-- All directives stand before the prologue. -/
  directives : ∀ directive ∈ program.directives,
    Text.byteLength line ≤ directive.span.start ∧
      directive.span.stop ≤ Text.byteLength (line ++ opening)
  /-- All statements stand behind it. -/
  statements : ∀ statement ∈ program.body, ∀ offset ∈ statement.start :: statement.spots,
    Text.byteLength (line ++ opening) ≤ offset
  /-- It has the getters of all names under which the module exports what is its own, in order. -/
  exports : exports.map (·.1) = program.localNames
  /-- All calls that ask for other modules stand behind it. -/
  calls : Lowering.calls later = program.asks

/-- A module that exports names of its own by getters is lowered so that they are set up behind its
    directives and before its statements. -/
theorem led_of_lower {id source : String} {lowered : Lowered} {program : Program}
    (h : lower id source = .ok lowered) (hread : Program.read .module source = .ok program)
    (hlocal : program.localNames ≠ []) :
    ∃ exports line opening later,
      Led source lowered.code program exports line opening later := by
  obtain ⟨subject, -, hanalysis, hmade, -⟩ := made_of_lower h
  obtain rfl := Except.ok.inj (hmade.read.symm.trans hread)
  have hstands := Program.read_stands hread
  have hmarks := Program.read_marks hread
  have hnames : (Plan.written subject).exports.map (·.1) = subject.program.localNames := by
    rw [Plan.written_exports, hanalysis]
    rfl
  have hexports : (Plan.written subject).exports ≠ [] := by
    rintro hnil
    rw [hnil] at hnames
    exact hlocal hnames.symm
  have hsource : subject.source = source.toList := by
    rw [← hmade.before, Plan.before_pieces]
  obtain ⟨line, opening, front, later, hpieces, hbefore, hafter, hfront, hstop, hline⟩ :=
    Plan.exists_pieces hstands hanalysis hexports (hsource ▸ hmarks)
  have hcalls := Plan.calls_pieces hstands hanalysis
  obtain ⟨first, lo, hi, -, hbody, hhashbang, hdirectives⟩ := hstands.body
  have hwhole : source.toList = line ++ opening ++ later.flatMap Piece.before := by
    rw [← hmade.before, hpieces, List.flatMap_append, hbefore, List.flatMap_cons]
    rfl
  have hcode : lowered.code.toList = opening ++
      (Change.prologue (Plan.written subject).exports).text.toList ++
        later.flatMap Piece.after := by
    rw [← hmade.after, hpieces, List.flatMap_append, hafter, List.flatMap_cons, List.append_assoc]
    rfl
  obtain ⟨rest, hprologue⟩ := Change.exists_prologue (Plan.written subject).exports
  have hbehind : lowered.code.toList = opening ++
      ('\n' :: ("Object".toList ++ '.' :: (rest ++ later.flatMap Piece.after))) := by
    rw [hcode, hprologue]
    simp only [List.append_assoc, List.cons_append]
  refine ⟨(Plan.written subject).exports, line, opening, later, ?_⟩
  exact {
    read := hread
    opens := Program.leadingDirectives_of_cut hread hwhole hstop hline hbehind
    source := hwhole
    code := hcode
    stop := hstop
    line_stop := hline
    directives := by
      intro directive hmem
      have hends := Plan.stop_le_prologueStart hstands hmem
      have hbounds := hdirectives directive hmem
      rw [hstop, hline (List.ne_nil_of_mem hmem)]
      refine ⟨?_, hends⟩
      cases hhash : subject.program.hashbang with
      | none => exact Nat.zero_le _
      | some span => exact Nat.le_trans (hhashbang span hhash).2 hbounds.1
    statements := by
      intro statement hmem offset hoffset
      obtain ⟨lo', hi', hle, hstand⟩ := hbody.stands_behind hmem
      have hstart := (Plan.prologueStart_bounds hdirectives).1
      rw [hstop]
      rcases List.mem_cons.1 hoffset with rfl | hspot
      · exact Nat.le_trans hstart (Nat.le_trans hle hstand.start_le)
      · exact Nat.le_trans hstart (Nat.le_trans hle (hstand.spots offset hspot).1)
    exports := hnames
    calls := by
      rw [hpieces] at hcalls
      unfold Lowering.calls at hcalls hfront ⊢
      rw [List.filterMap_append, List.flatMap_append, hfront] at hcalls
      exact hcalls }

/-- A module with a first line and a directive that exports a name that it imports. -/
def announced : String :=
  "#!/usr/bin/env node\n'use strict'\nimport a from './a.js'\nexport \x7b a \x7d\nexport const b = a()\n"

theorem led_of_lower_announced :
    ∃ lowered program, lower "m.js" announced = .ok lowered ∧
      Program.read .module announced = .ok program ∧ program.localNames ≠ [] ∧
      ∃ exports line opening later,
        Led announced lowered.code program exports line opening later := by
  obtain ⟨lowered, hlower⟩ :=
    exists_lower_of_isOk (by decide +kernel : (lower "m.js" announced).isOk = true)
  have hlocal : (Program.read .module announced).toOption.all
      (fun program => decide (program.localNames ≠ [])) = true := by decide +kernel
  obtain ⟨subject, -, -, hmade, -⟩ := made_of_lower hlower
  rw [hmade.read] at hlocal
  have hlocal := of_decide_eq_true hlocal
  exact ⟨lowered, subject.program, hlower, hmade.read, hlocal,
    led_of_lower hlower hmade.read hlocal⟩

end Bundler

import Bundler.Proofs.Lowering.Exports
import Mathlib.Order.Basic

/-!
# The names that an export of all leaves out

An export of all that another module has goes over the names of that module when it is loaded, and
leaves out those in a list that the lowering has written. The list is the same in each such export
of a module: in order, and each once, it has the names that the lowered module defines, the default
export and the mark.

* `mem_leftOut`, `leftOut_sorted`: what the list has in it, and its order;
* `Plan.make_skips`: the lists in the changes to a module;
* `skipLists`: the lists in pieces;
* `starred`: the names that an export of all adds;
* `skipLists_of_lower`: the lists in a lowered module, and what they keep from being defined.
-/

namespace Bundler

/-! ### Elements in order, each once -/

section

variable {names kept : List String} {name first : String}

theorem mem_eraseReps_loop :
    name ∈ List.eraseRepsBy.loop (· == ·) first names kept ↔
      name ∈ kept ∨ name = first ∨ name ∈ names := by
  induction names generalizing first kept with
  | nil => simp [List.eraseRepsBy.loop, or_comm]
  | cons second names ih =>
    rw [List.eraseRepsBy.loop]
    cases hsame : first == second with
    | true =>
      rw [ih, eq_of_beq hsame, List.mem_cons]
      tauto
    | false =>
      rw [ih, List.mem_cons, List.mem_cons]
      tauto

theorem mem_eraseReps : name ∈ names.eraseReps ↔ name ∈ names := by
  cases names with
  | nil => rfl
  | cons first names =>
    rw [List.eraseReps, List.eraseRepsBy, mem_eraseReps_loop, List.mem_cons]
    simp

/-- Of what is in order the elements that are kept are in order, and none is kept twice. -/
theorem pairwise_eraseReps_loop (hnames : (first :: names).Pairwise (· ≤ ·))
    (hkept : (kept.reverse ++ [first]).Pairwise (· < ·)) :
    (List.eraseRepsBy.loop (· == ·) first names kept).Pairwise (· < ·) := by
  induction names generalizing first kept with
  | nil => rwa [List.eraseRepsBy.loop, List.reverse_cons]
  | cons second names ih =>
    obtain ⟨hfirst, hmore⟩ := List.pairwise_cons.1 hnames
    rw [List.eraseRepsBy.loop]
    cases hsame : first == second with
    | true =>
      obtain rfl := eq_of_beq hsame
      exact ih hmore hkept
    | false =>
      have hlt : first < second := lt_of_le_of_ne (hfirst second (.head _)) (ne_of_beq_false hsame)
      refine ih hmore ?_
      rw [List.reverse_cons]
      refine List.pairwise_append.2 ⟨hkept, List.pairwise_singleton _ _, ?_⟩
      intro other hother last hlast
      obtain rfl := List.mem_singleton.1 hlast
      rcases List.mem_append.1 hother with hother | hother
      · exact lt_trans ((List.pairwise_append.1 hkept).2.2 other hother first (.head _)) hlt
      · exact List.mem_singleton.1 hother ▸ hlt

theorem pairwise_eraseReps (h : names.Pairwise (· ≤ ·)) : names.eraseReps.Pairwise (· < ·) := by
  cases names with
  | nil => exact .nil
  | cons first names => exact pairwise_eraseReps_loop h (List.pairwise_singleton _ _)

end

open Script Lowering

/-- The place of an export of all that another module has. -/
def Script.TopLevel.star? : TopLevel → Option Span
  | .exportAll span none _ => some span
  | _ => none

namespace Lowering

/-! ### Lists of names -/

/-- The lists of names that a statement leaves out. -/
def Statement.skips : Statement → List (List String)
  | .all _ but => [but]
  | _ => []

/-- The lists of names that are left out in a change. -/
def Change.skips : Change → List (List String)
  | .statements written => written.flatMap Statement.skips
  | _ => []

/-- The lists of names that are left out in a change, with its place. -/
def skipsAt (one : Span × Change) : List (Span × List String) :=
  one.2.skips.map fun but => (one.1, but)

/-- The lists of names that are left out in pieces, in order, each with the place of its change. -/
def skipLists (pieces : List Piece) : List (Span × List String) :=
  (pieces.filterMap Piece.change?).flatMap skipsAt

/-- The names that an export of all adds to exports that have some names already: those that the
    other module has, but for the ones in the list and the ones that are there. -/
def starred (but own theirs : List String) : List String :=
  theirs.filter fun name => !(but.contains name || own.contains name)

theorem Statement.text_all (holder : String) (but : List String) :
    (all holder but).text =
      "Object.keys(" ++ holder ++ ").forEach(function (key) \x7b\n" ++ "if (" ++ arrayText but ++
        ".indexOf(key) !== -1 || Object.prototype.hasOwnProperty.call(exports, key)) return;\n" ++
        "Object.defineProperty(exports, key, \x7b enumerable: true, get: function () \x7b return " ++
        holder ++ "[key]; \x7d \x7d);\n" ++ "\x7d);" := rfl

/-- The list stands in the text of an export of all. -/
theorem Statement.infix_all (holder : String) (but : List String) :
    (arrayText but).toList <:+: (all holder but).text.toList := by
  have hbefore {text front back : String} (h : text.toList <:+: front.toList) :
      text.toList <:+: (front ++ back).toList := by
    rw [String.toList_append]
    exact h.trans (List.prefix_append _ _).isInfix
  rw [text_all]
  refine hbefore (hbefore (hbefore (hbefore (hbefore ?_))))
  rw [String.toList_append]
  exact (List.suffix_append _ _).isInfix

theorem Change.skips_of_isUse {change : Change} (h : change.isUse = true) : change.skips = [] := by
  unfold isUse at h
  split at h <;> first | rfl | cases h

/-- A list of names that are left out in a change is that of an export of all. -/
theorem Change.exists_all {change : Change} {but : List String} (h : but ∈ change.skips) :
    ∃ written holder, change = .statements written ∧ .all holder but ∈ written := by
  cases change with
  | statements written =>
    obtain ⟨statement, hmem, hbut⟩ := List.mem_flatMap.1 h
    cases statement with
    | all holder other =>
      obtain rfl := List.mem_singleton.1 hbut
      exact ⟨written, holder, rfl, hmem⟩
    | _ => cases hbut
  | _ => cases h

namespace Plan

variable {analysis : Analysis} {body : List TopLevel}

/-- What is left out are the names that the statements export, the default export and the mark. -/
theorem mem_leftOut {name : String} : name ∈ leftOut analysis body ↔
    name = TopLevel.defaultName ∨ name = "__esModule" ∨ name ∈ body.flatMap (ownNames analysis) := by
  unfold leftOut
  dsimp only
  rw [mem_eraseReps, List.mem_mergeSort, List.mem_cons, List.mem_cons, List.mem_flatMap,
    List.mem_flatMap]
  constructor
  · rintro (h | h | ⟨statement, hstatement, hname⟩)
    · exact .inl h
    · exact .inr (.inl h)
    · refine .inr (.inr ⟨statement, hstatement, ?_⟩)
      cases statement with
      | exportDefault => cases hname
      | _ => exact hname
  · rintro (h | h | ⟨statement, hstatement, hname⟩)
    · exact .inl h
    · exact .inr (.inl h)
    · cases statement with
      | exportDefault => exact .inl (List.mem_singleton.1 hname)
      | _ => exact .inr (.inr ⟨_, hstatement, hname⟩)

/-- They stand in order, each once. -/
theorem leftOut_sorted : (leftOut analysis body).Pairwise (· < ·) := by
  refine pairwise_eraseReps ?_
  have hsorted := @List.pairwise_mergeSort String (fun one other => decide (one ≤ other))
    (fun _ _ _ h h' => decide_eq_true (le_trans (of_decide_eq_true h) (of_decide_eq_true h')))
    (fun one other => by simpa using le_total one other)
    (TopLevel.defaultName :: "__esModule" :: body.flatMap (explicitNames analysis))
  exact hsorted.imp of_decide_eq_true

/-! ### The lists in the changes to a module -/

/-- The lists of names that are left out by a plan, as far as it is made. -/
def skipped (plan : Plan) : List (Span × List String) :=
  plan.changes.flatMap skipsAt

theorem skipped_change {plan before : Plan} (hbefore : skipped plan = skipped before) (span : Span)
    (change : Change) : skipped (plan.change span change) =
      skipped before ++ change.skips.map fun but => (span, but) := by
  rw [← hbefore, skipped, Plan.change, List.flatMap_append, List.flatMap_singleton]
  rfl

/-- A change without a list adds none. -/
theorem skipped_change_of_nil {plan before : Plan} (hbefore : skipped plan = skipped before)
    (span : Span) {change : Change} (h : change.skips = []) :
    skipped (plan.change span change) = skipped before := by
  rw [skipped_change hbefore, h, List.map_nil, List.append_nil]

theorem skipped_require (plan : Plan) (specifier : String) :
    skipped (plan.require specifier) = skipped plan :=
  congrArg (List.flatMap skipsAt) (changes_require plan specifier)

theorem skipped_foldl_exportAs {α : Type} (name : α → String) (value : Plan → α → String)
    (names : List α) (plan : Plan) :
    skipped (names.foldl (fun plan one => plan.exportAs (name one) (value plan one)) plan) =
      skipped plan :=
  congrArg (List.flatMap skipsAt) (exportAs_foldl name value names plan).1

theorem skips_getters {α : Type} (specifiers : List α) (name value : α → String) :
    (specifiers.map fun one => Statement.getter (name one) (value one)).flatMap
      Statement.skips = [] := by
  rw [List.flatMap_map]
  exact List.flatMap_eq_nil_iff.2 fun _ _ => rfl

/-- Imports leave out nothing. -/
theorem skipped_importsOf (plan : Plan) :
    skipped (importsOf analysis plan body) = skipped plan := by
  induction body generalizing plan with
  | nil => rfl
  | cons statement more ih =>
    cases statement with
    | importFrom span specifiers source =>
      have hrequire := skipped_require plan source.value.toText
      rw [importsOf, ih]
      unfold importFrom
      split
      · exact skipped_change_of_nil hrequire _ rfl
      split
      · exact skipped_change_of_nil hrequire _ rfl
      · exact skipped_change_of_nil hrequire _ rfl
    | _ => exact ih plan

theorem skipped_exportDefault (source : List Char) (plan : Plan) (span : Span) (value : Node) :
    skipped (exportDefault source plan span value) = skipped plan := by
  unfold exportDefault
  split
  · exact skipped_change_of_nil rfl _ rfl
  · exact (skipped_change_of_nil rfl _ rfl).trans (skipped_change_of_nil rfl _ rfl)
  · exact skipped_change_of_nil rfl _ rfl
  · unfold exportValue
    dsimp only
    split
    · exact skipped_change_of_nil rfl _ rfl
    · exact (skipped_change_of_nil rfl _ rfl).trans (skipped_change_of_nil rfl _ rfl)

/-- Each export of all leaves out the list that it is given. -/
theorem skipped_exportsOf (subject : Subject) (but : List String) (plan : Plan) :
    skipped (exportsOf subject but plan body) =
      skipped plan ++ (body.filterMap TopLevel.star?).map fun span => (span, but) := by
  -- The induction is on the statements. Only an export of all without a name writes a list.
  induction body generalizing plan with
  | nil => exact (List.append_nil _).symm
  | cons statement more ih =>
    cases statement with
    | exportNames span specifiers source =>
      cases source with
      | none =>
        rw [exportsOf, ih, List.filterMap_cons_none rfl]
        exact congrArg (· ++ _) (skipped_change_of_nil (skipped_foldl_exportAs _ _ _ _) _ rfl)
      | some source =>
        rw [exportsOf, ih, List.filterMap_cons_none rfl]
        refine congrArg (· ++ _) (skipped_change_of_nil (skipped_require plan _) _ ?_)
        exact skips_getters specifiers (·.exported.name) _
    | exportDeclaration span declaration =>
      rw [exportsOf, ih, List.filterMap_cons_none rfl]
      congr 1
      exact (skipped_foldl_exportAs _ _ _ _).trans (skipped_change_of_nil rfl _ rfl)
    | exportDefault span value =>
      rw [exportsOf, ih, skipped_exportDefault, List.filterMap_cons_none rfl]
    | exportAll span exported source =>
      have hrequire := skipped_require plan source.value.toText
      cases exported with
      | some =>
        rw [exportsOf, ih, List.filterMap_cons_none rfl]
        exact congrArg (· ++ _) (skipped_change_of_nil hrequire _ rfl)
      | none =>
        have hstar : (TopLevel.exportAll span none source).star? = some span := rfl
        rw [exportsOf, ih, List.filterMap_cons_some hstar, List.map_cons, List.append_cons]
        exact congrArg (· ++ _) (skipped_change hrequire _ _)
    | _ => exact ih plan

/-- The changes to a module leave out one list in each export of all, in order. -/
theorem make_skipped (subject : Subject) :
    skipped (make subject) = (subject.program.body.filterMap TopLevel.star?).map fun span =>
      (span, leftOut subject.analysis subject.program.body) := by
  have hopening : skipped (opening subject) = [] := by
    rw [opening_eq, skipped, List.flatMap_map]
    exact List.flatMap_eq_nil_iff.2 fun _ _ => rfl
  have huses : (usesOf subject.source (written subject) subject.analysis.found.reverse).flatMap
      skipsAt = [] :=
    List.flatMap_eq_nil_iff.2 fun one hone => by
      rw [skipsAt, Change.skips_of_isUse (usesOf_changes one hone).1, List.map_nil]
  have hprologue : (prologueOf subject.program (written subject).exports).flatMap skipsAt = [] := by
    unfold prologueOf
    split <;> rfl
  rw [skipped, make_eq, List.flatMap_append, List.flatMap_append, huses, hprologue, List.append_nil,
    List.append_nil]
  refine (skipped_exportsOf subject _ _).trans ?_
  rw [skipped_importsOf, hopening, List.nil_append]

/-- The same lists are in the pieces of the lowered module. -/
theorem skipLists_pieces {subject : Subject} (hstands : subject.program.Stands)
    (hanalysis : subject.analysis =
      Analysis.ofOccurrences (subject.program.occurrences .module)) :
    (skipLists ((make subject).pieces subject.source)).Perm
      ((subject.program.body.filterMap TopLevel.star?).map fun span =>
        (span, leftOut subject.analysis subject.program.body)) := by
  have hmade := flatMap_made hstands hanalysis (f := skipsAt) fun one huse => by
    rw [skipsAt, Change.skips_of_isUse huse, List.map_nil]
  rw [skipLists, hmade, ← make_skipped]
  exact (make subject).inOrder_perm.flatMap_right _

end Plan

/-- A list that stands in an export of all, in the place of a piece. -/
def IsWritten (pieces : List Piece) (span : Span) (but : List String) : Prop :=
  ∃ old written holder, .changed span old (.statements written) ∈ pieces ∧
    .all holder but ∈ written ∧
      (Statement.arrayText but).toList <:+: (Change.statements written).text.toList

/-- Each list is written. -/
theorem isWritten_of_mem_skipLists {pieces : List Piece} {span : Span} {but : List String}
    (h : (span, but) ∈ skipLists pieces) : IsWritten pieces span but := by
  obtain ⟨⟨place, change⟩, hchange, hskips⟩ := List.mem_flatMap.1 h
  obtain ⟨other, hother, heq⟩ := List.mem_map.1 hskips
  cases heq
  obtain ⟨written, holder, rfl, hmem⟩ := Change.exists_all hother
  obtain ⟨piece, hpiece, hsame⟩ := List.mem_filterMap.1 hchange
  cases piece with
  | kept => cases hsame
  | changed _ old _ =>
    cases hsame
    exact ⟨old, written, holder, hpiece, hmem,
      (Statement.infix_all holder but).trans (Change.infix_statement hmem)⟩

end Lowering

/-- A list of names that are left out in a lowered module. -/
structure LeavesOut (pieces : List Piece) (span : Span) (but : List String) : Prop where
  /-- It stands in an export of all. -/
  written : IsWritten pieces span but
  /-- It is in order, and each name stands in it once. -/
  sorted : but.Pairwise (· < ·)
  /-- It has the names that the lowered module defines, the default export and the mark. -/
  mem_iff : ∀ name, name ∈ but ↔
    name = TopLevel.defaultName ∨ name = "__esModule" ∨ name ∈ definitions pieces
  /-- No name that the lowered module defines is added from the other module. -/
  starred : ∀ own theirs, ∀ name ∈ definitions pieces, name ∉ Lowering.starred but own theirs

/-- In a lowered module there is one list of names that are left out in the place of each export of
    all that another module has, and no other one, and these lists are right. -/
theorem skipLists_of_lower {id source : String} {lowered : Lowered}
    (h : lower id source = .ok lowered) :
    ∃ subject, examine id source = .ok subject ∧
      let pieces := (Plan.make subject).pieces subject.source
      Exporting source lowered.code subject.program pieces ∧
      ((skipLists pieces).map (·.1)).Perm (subject.program.body.filterMap TopLevel.star?) ∧
      ∀ list ∈ skipLists pieces, LeavesOut pieces list.1 list.2 := by
  obtain ⟨subject, hsubject, hanalysis, hmade, -⟩ := made_of_lower h
  have hexporting := exporting_of_made hanalysis hmade
  have hskips := Plan.skipLists_pieces (Program.read_stands hmade.read) hanalysis
  refine ⟨subject, hsubject, hexporting, ?_, ?_⟩
  · have hplaces := hskips.map (·.1)
    rw [List.map_map] at hplaces
    exact hplaces.trans (.of_eq (List.map_id _))
  · rintro ⟨span, but⟩ hlist
    obtain ⟨_, -, hsame⟩ := List.mem_map.1 (hskips.subset hlist)
    obtain rfl : _ = but := congrArg Prod.snd hsame
    have hmem (name : String) : name ∈ Plan.leftOut subject.analysis subject.program.body ↔
        name = TopLevel.defaultName ∨ name = "__esModule" ∨
          name ∈ definitions ((Plan.make subject).pieces subject.source) := by
      rw [Plan.mem_leftOut, hexporting.names.mem_iff, hanalysis]
    exact {
      written := isWritten_of_mem_skipLists hlist
      sorted := Plan.leftOut_sorted
      mem_iff := hmem
      starred := fun own theirs name hname hadded => by
        have hbut := (hmem name).2 (.inr (.inr hname))
        simp [Lowering.starred, hbut] at hadded }

/-- A module with an export of all before and behind exports of its own. -/
def mixed : String :=
  "export \x7b y as b \x7d from './b.js';\nexport * from './a.js';\nexport const \x7b a, ...c \x7d = b();\n" ++
    "export * as d from './d.js';\nexport default 1;\nexport * from './e.js';\n"

theorem skipLists_of_lower_mixed :
    ∃ lowered, lower "m.js" mixed = .ok lowered ∧
      ∃ subject, examine "m.js" mixed = .ok subject ∧
        let pieces := (Plan.make subject).pieces subject.source
        Exporting mixed lowered.code subject.program pieces ∧
        ((skipLists pieces).map (·.1)).Perm (subject.program.body.filterMap TopLevel.star?) ∧
        ∀ list ∈ skipLists pieces, LeavesOut pieces list.1 list.2 := by
  obtain ⟨lowered, hlower⟩ :=
    exists_lower_of_isOk (by decide +kernel : (lower "m.js" mixed).isOk = true)
  exact ⟨lowered, hlower, skipLists_of_lower hlower⟩

end Bundler

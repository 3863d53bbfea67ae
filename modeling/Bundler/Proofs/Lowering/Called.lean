import Bundler.Proofs.Lowering.Added
import Bundler.Proofs.Lowering.Apart
import Bundler.Proofs.Script.Called

/-!
# What a lowered module calls

Where a module calls a name that is imported from another one, the lowered module calls the value of
the name as no method: the value stands there behind a comma, so the function is not handed the
object with the exports of its module. That holds of calls, optional ones among them, and of no other
way to call a function: a name before a template, or between parentheses, is written as a mere
property.

* `Plan.made_or_within`: a change is made, or it is one to a use in what another change takes away;
* `Plan.gone_or_made`: the value of a name stands where the name was used;
* `Analysis.found_of_meaningOf`: what a use means is looked up for this use;
* `calling_of_lower`: the calls of imported names in a lowered module.
-/

namespace Bundler

open Script Lowering

namespace Script

/-- What a name means that is used at a place is looked up for the use at this place. -/
theorem Analysis.found_of_meaningOf {program : Program} (hstands : program.Stands) {use : Use}
    {declared : Ident} (huse : use ∈ usesIn program.inside)
    (h : (ofOccurrences (program.occurrences .module)).meaningOf use.id = some declared) :
    (use, some declared) ∈ (ofOccurrences (program.occurrences .module)).found := by
  obtain ⟨⟨other, meaning⟩, hfound, hmeaning⟩ := List.exists_of_findSome?_eq_some h
  obtain ⟨hid, rfl⟩ : other.id = use.id ∧ meaning = some declared := by
    dsimp only at hmeaning
    split at hmeaning
    next hid => exact ⟨hid, hmeaning⟩
    · cases hmeaning
  have hsame := List.inj_on_of_nodup_map (Program.uses_nodup hstands)
    (mem_usesIn_of_found hfound) huse hid
  exact hsame ▸ hfound

end Script

namespace Lowering

/-- What stands in a stretch of a module is not in the lowered module: a change takes it away. -/
def Gone (pieces : List Piece) (span : Span) : Prop :=
  ∃ other old change, .changed other old change ∈ pieces ∧ other.start < span.start ∧
    span.stop ≤ other.stop

namespace Plan

/-! ### Changes that are made -/

/-- A change is made, or an earlier one that is made ends behind its start. -/
theorem mem_piecesFrom {offset : Nat} {changes : List (Span × Change)} (text : List Char)
    {before : Span × Change → Span × Change → Prop} (hbefore : changes.Pairwise before) :
    ∀ one ∈ changes, offset ≤ one.1.start →
      (∃ old, .changed one.1 old one.2 ∈ piecesFrom offset text changes) ∨
        ∃ other old, .changed other.1 old other.2 ∈ piecesFrom offset text changes ∧
          before other one ∧ one.1.start < other.1.stop := by
  induction changes generalizing offset text with
  | nil => exact nofun
  | cons first more ih =>
    obtain ⟨span, change⟩ := first
    obtain ⟨hfirst, hmore⟩ := List.pairwise_cons.1 hbefore
    intro one hone hoffset
    rw [piecesFrom]
    split
    next hlt =>
      rcases List.mem_cons.1 hone with rfl | hone
      · exact absurd hlt (Nat.not_lt.2 hoffset)
      · exact ih text hmore one hone hoffset
    next =>
      dsimp only
      rcases List.mem_cons.1 hone with rfl | hone
      · exact .inl ⟨_, .tail _ (.head _)⟩
      · rcases Nat.lt_or_ge one.1.start span.stop with hlt | hle
        · exact .inr ⟨(span, change), _, .tail _ (.head _), hfirst one hone, hlt⟩
        · rcases ih _ hmore one hone hle with ⟨old, hmade⟩ | ⟨other, old, hmade, hother⟩
          · exact .inl ⟨old, .tail _ (.tail _ hmade)⟩
          · exact .inr ⟨other, old, .tail _ (.tail _ hmade), hother⟩

/-- No change to a use ends where it starts. -/
theorem start_lt_of_isUse {subject : Subject} (hstands : subject.program.Stands)
    (hanalysis : subject.analysis =
      Analysis.ofOccurrences (subject.program.occurrences .module)) {one : Span × Change}
    (hone : one ∈ usesOf subject.source (written subject) subject.analysis.found.reverse) :
    one.1.start < one.1.stop := by
  obtain ⟨lo, hi, hchain⟩ := hstands.chain
  obtain ⟨-, statement, hmem, -, id, hid, hspan⟩ := ident_of_use hanalysis hone
  rw [hspan]
  exact hchain.filled id (List.mem_flatMap.2 ⟨statement, hmem, hid⟩)

/-- A change to a use is made, or the use is in what another change takes away that is made. -/
theorem made_or_within {subject : Subject} (hstands : subject.program.Stands)
    (hanalysis : subject.analysis =
      Analysis.ofOccurrences (subject.program.occurrences .module)) {one : Span × Change}
    (hone : one ∈ usesOf subject.source (written subject) subject.analysis.found.reverse) :
    (∃ old, .changed one.1 old one.2 ∈ (make subject).pieces subject.source) ∨
      ∃ other old, .changed other.1 old other.2 ∈ (make subject).pieces subject.source ∧
        Within one other := by
  have hmem : one ∈ (make subject).inOrder := by
    rw [(make subject).inOrder_perm.mem_iff, make_eq]
    exact List.mem_append_left _ (List.mem_append_right _ hone)
  have hlt := start_lt_of_isUse hstands hanalysis hone
  refine (mem_piecesFrom subject.source (inOrder_pairwise hstands hanalysis) one hmem
    (Nat.zero_le _)).imp_right ?_
  rintro ⟨other, old, hmade, ⟨hsorted, hapart⟩, hbehind⟩
  refine ⟨other, old, hmade, ?_⟩
  rcases hapart with (hapart | hapart) | hwithin | hwithin
  · omega
  · omega
  · have := hwithin.2.1
    omega
  · exact hwithin

/-- Where a name is used that has a value, the value stands, unless the use is gone. -/
theorem gone_or_made {subject : Subject} (hstands : subject.program.Stands)
    (hanalysis : subject.analysis =
      Analysis.ofOccurrences (subject.program.occurrences .module)) {use : Use} {declared : Ident}
    (hfound : (use, some declared) ∈ subject.analysis.found) {value : String}
    (hvalue : (written subject).value? (some declared) = some value) :
    Gone ((make subject).pieces subject.source) use.id.span ∨
      ∃ old, .changed use.id.span old (useChange subject.source use value) ∈
        (make subject).pieces subject.source := by
  have hchange : (use.id.span, useChange subject.source use value) ∈
      usesOf subject.source (written subject) subject.analysis.found.reverse := by
    refine List.mem_filterMap.2 ⟨_, List.mem_reverse.2 hfound, ?_⟩
    dsimp only
    rw [hvalue]
    rfl
  rcases made_or_within hstands hanalysis hchange with hmade | ⟨other, old, hpiece, hwithin⟩
  · exact .inr hmade
  · exact .inl ⟨other.1, old, other.2, hpiece, hwithin.2⟩

end Plan

end Lowering

/-- A module and the lowered module, with the calls of imported names. -/
structure Calling (source code : String) (program : Program) (pieces : List Piece) : Prop extends
    Made source code program pieces where
  /-- Where the name of an import is called, at whatever depth, the value of the import stands,
      and it is called as no method, unless the call is gone. -/
  called : ∀ call id declared, program.Holds call → call.calledName? = some id →
    let analysis := Analysis.ofOccurrences (program.occurrences .module)
    analysis.meaningOf id = some declared →
    declared ∈ program.imported.map (fun one => analysis.declarationOf one.1) →
    Gone pieces id.span ∨
      ∃ imported ∈ program.imported, analysis.declarationOf imported.1 = declared ∧
        ∃ holder old, .changed id.span old (.called (holder ++ memberOf imported.2)) ∈ pieces

/-- A lowered module calls the values of imported names where the module calls the names. -/
theorem calling_of_lower {id source : String} {lowered : Lowered}
    (h : lower id source = .ok lowered) :
    ∃ subject, examine id source = .ok subject ∧
      Calling source lowered.code subject.program ((Plan.make subject).pieces subject.source) := by
  obtain ⟨subject, hsubject, hanalysis, hmade, -⟩ := made_of_lower h
  have hstands := Program.read_stands hmade.read
  refine ⟨subject, hsubject, { hmade with called := ?_ }⟩
  intro call name declared hholds hcall analysis hmeaning hdeclared
  have hsame : subject.analysis = analysis := hanalysis
  have hoccurrences := occurrences_of_examine hsubject
  obtain ⟨value, hvalue⟩ := Plan.exists_value hoccurrences (hsame ▸ hdeclared)
  obtain ⟨imported, himported, _, _, _, holder, -, -, hentry, -⟩ :=
    Plan.exists_imported hoccurrences hvalue
  obtain ⟨hdeclaration, rfl⟩ := Prod.mk.inj hentry
  have hfound : (⟨name, .callee⟩, some declared) ∈ subject.analysis.found := hsame ▸
    Analysis.found_of_meaningOf hstands (Program.callee_of_holds hholds hcall) hmeaning
  exact (Plan.gone_or_made hstands hanalysis hfound hvalue).imp_right fun ⟨old, hpiece⟩ =>
    ⟨imported, himported, hsame ▸ hdeclaration.symm, holder, old, hpiece⟩

/-- A module that calls an imported name in all ways. -/
def invoked : String :=
  "import \x7b f \x7d from './f.js';\nf();\nf?.();\nf`x`;\n(f)();\n"

/-- Before a template and between parentheses the name is written as a property, so the function is
    handed the exports of its module. -/
theorem calling_of_lower_invoked :
    ∃ lowered, lower "a.js" invoked = .ok lowered ∧
      ∃ subject, examine "a.js" invoked = .ok subject ∧
        (Plan.make subject).changes.map (·.2.text) =
          ["var _f = require(\"./f.js\");", "(0, _f.f)", "(0, _f.f)", "_f.f", "_f.f"] ∧
        Calling invoked lowered.code subject.program
          ((Plan.make subject).pieces subject.source) := by
  have hchanges : (examine "a.js" invoked).toOption.map (fun subject =>
      (Plan.make subject).changes.map (·.2.text)) =
        some ["var _f = require(\"./f.js\");", "(0, _f.f)", "(0, _f.f)", "_f.f", "_f.f"] := by
    decide +kernel
  obtain ⟨lowered, hlower⟩ :=
    exists_lower_of_isOk (by decide +kernel : (lower "a.js" invoked).isOk = true)
  obtain ⟨subject, hsubject, hcalling⟩ := calling_of_lower hlower
  rw [hsubject] at hchanges
  exact ⟨lowered, hlower, subject, hsubject, Option.some.inj hchanges, hcalling⟩

end Bundler

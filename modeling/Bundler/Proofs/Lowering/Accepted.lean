import Bundler.Lowering
import Bundler.Proofs.Script.Idents
import Bundler.Proofs.Script.Parts

/-!
# Which modules are accepted

A module can be part of a bundle if its file has the extension of one, its source is a module that
keeps the rules, no name at its top is one of the loader's, and there is nothing in it that a bundle
has no means for: nothing that asks for a module while it runs, and outside of all functions'
bodies no expression and no loop that waits. Resources that are waited for at the end of their block
are not looked for: a module that declares one at its top is accepted.

* `unsupported?_eq_none_iff`, `loaderClash?_eq_none_iff`: what is looked for;
* `examine_eq_ok_iff`: what examining a source gives;
* `exists_examine_iff`: which sources can be part of a bundle;
* `exists_lower_iff`: which modules are accepted.
-/

namespace Bundler

open Script

namespace Lowering

theorem unsupported?_eq_none_iff {occurrences : List Occurrence} :
    unsupported? occurrences = none ↔ hasUnsupported occurrences = false := by
  unfold unsupported?
  rw [List.findSome?_eq_none_iff, hasUnsupported, List.any_eq_false]
  refine forall₂_congr fun occurrence _ => ?_
  cases occurrence <;> simp [Occurrence.isUnsupported]

theorem loaderClash?_eq_none_iff {analysis : Analysis} :
    loaderClash? analysis = none ↔ ∀ bound ∈ analysis.top, bound.name ∉ loaderNames := by
  simp [loaderClash?]

/-- What is examined is a module that is read and in which no fault is found. Only the errors tell
    which file they are about. -/
theorem examine_eq_ok_iff {id source : String} {subject : Subject} :
    examine id source = .ok subject ↔ ∃ program, Program.read .module source = .ok program ∧
      let occurrences := program.occurrences .module
      let analysis := Analysis.ofOccurrences occurrences
      analysis.issue? = none ∧ loaderClash? analysis = none ∧ unsupported? occurrences = none ∧
        subject = { source := source.toList, program, occurrences, analysis } := by
  unfold examine
  dsimp only
  constructor
  · intro h
    obtain ⟨program, hread, h⟩ := Except.bind_eq_ok.1 h
    cases hprogram : Program.read .module source with
    | error issue =>
      rw [hprogram] at hread
      cases hread
    | ok other =>
      rw [hprogram] at hread
      cases hread
      -- The faults are looked for one after another, and the first that is found is told.
      split at h
      · cases h
      next hissue =>
        split at h
        · cases h
        next hclash =>
          split at h
          · cases h
          next hunsupported =>
            cases h
            exact ⟨program, rfl, hissue, hclash, hunsupported, rfl⟩
  · rintro ⟨program, hread, hissue, hclash, hunsupported, rfl⟩
    rw [hread]
    refine Except.bind_eq_ok.2 ⟨program, rfl, ?_⟩
    rw [hissue, hclash, hunsupported]
    rfl

theorem occurrences_of_examine {id source : String} {subject : Subject}
    (h : examine id source = .ok subject) :
    subject.occurrences = subject.program.occurrences .module := by
  obtain ⟨program, -, -, -, -, rfl⟩ := examine_eq_ok_iff.1 h
  rfl

/-- A source can be part of a bundle if it is a module that keeps the rules, none of the loader's
    names is bound at its top, and there is nothing in it that the walk over it takes amiss. -/
theorem exists_examine_iff (id source : String) :
    (∃ subject, examine id source = .ok subject) ↔
      ∃ program, Program.read .module source = .ok program ∧
        let analysis := Analysis.ofOccurrences (program.occurrences .module)
        analysis.issue? = none ∧ (∀ bound ∈ analysis.top, bound.name ∉ loaderNames) ∧
          hasUnsupported (program.occurrences .module) = false := by
  simp only [← loaderClash?_eq_none_iff, ← unsupported?_eq_none_iff]
  constructor
  · rintro ⟨subject, h⟩
    obtain ⟨program, hread, hissue, hclash, hunsupported, -⟩ := examine_eq_ok_iff.1 h
    exact ⟨program, hread, hissue, hclash, hunsupported⟩
  · rintro ⟨program, hread, hissue, hclash, hunsupported⟩
    exact ⟨_, examine_eq_ok_iff.2 ⟨program, hread, hissue, hclash, hunsupported, rfl⟩⟩

end Lowering

open Lowering

/-- A module is accepted exactly if it has the extension of one and its source can be part of a
    bundle. -/
theorem exists_lower_iff (id source : String) :
    (∃ lowered, lower id source = .ok lowered) ↔
      isModuleExtension ((Path.extension? id).getD "") = true ∧
      ∃ program, Program.read .module source = .ok program ∧
        let analysis := Analysis.ofOccurrences (program.occurrences .module)
        analysis.issue? = none ∧ (∀ bound ∈ analysis.top, bound.name ∉ loaderNames) ∧
          (∀ inner, program.Holds inner → inner.asksLoader = false) ∧
          ∀ inner, program.HoldsOutside inner → inner.waits = false := by
  have hnone (program : Program) : hasUnsupported (program.occurrences .module) = false ↔
      (∀ inner, program.Holds inner → inner.asksLoader = false) ∧
        ∀ inner, program.HoldsOutside inner → inner.waits = false := by
    rw [← Bool.not_eq_true, program.hasUnsupported_occurrences]
    simp only [not_or, not_exists, not_and, Bool.not_eq_true]
  simp only [← hnone, ← exists_examine_iff id source]
  unfold lower
  dsimp only
  cases isModuleExtension ((Path.extension? id).getD "") with
  | false => exact ⟨fun ⟨_, h⟩ => (nomatch h), fun ⟨h, _⟩ => (nomatch h)⟩
  | true =>
    cases examine id source with
    | error error => exact ⟨fun ⟨_, h⟩ => (nomatch h), fun ⟨_, _, h⟩ => (nomatch h)⟩
    | ok subject => exact ⟨fun _ => ⟨rfl, subject, rfl⟩, fun _ => ⟨_, rfl⟩⟩

/-- A resource that is waited for at the top is not told from others. -/
example : (lower "a.js" "await using x = open();\n").toOption.isSome = true := by
  decide +kernel

end Bundler

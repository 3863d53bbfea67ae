import Bundler.Proofs.Lowering.Apart

/-!
# What a lowered module exports

A lowered module defines names on its exports: by getters in its prologue, by getters in the place
of a statement that exports from another module, and by an assignment. These are the names under
which its statements export, each as often as it is exported.

A declaration that is exported counts for the names that are declared there first.

* `Plan.definitions_pieces`: the names that a lowered module defines;
* `Exporting`: a module and the lowered module, with the names that are defined;
* `exporting_of_lower`: a lowered module defines the names under which its statements export.
-/

namespace Bundler

open Script Lowering

namespace Lowering

namespace Plan

variable {subject : Subject}

/-- What a lowered module defines is what its statements export by name, each as often as they
    export it. -/
theorem definitions_pieces (hstands : subject.program.Stands)
    (hanalysis : subject.analysis =
      Analysis.ofOccurrences (subject.program.occurrences .module)) :
    (definitions ((make subject).pieces subject.source)).Perm
      (subject.program.body.flatMap (ownNames subject.analysis)) := by
  unfold definitions
  rw [flatMap_made hstands hanalysis fun one huse => Change.defines_of_isUse huse]
  exact ((make subject).inOrder_perm.flatMap_right _).trans (make_defines subject)

end Plan

/-- Each name that is defined stands so in the text of a piece. -/
theorem written_of_mem_definitions {pieces : List Piece} {name : String}
    (h : name ∈ definitions pieces) :
    ∃ span old change, .changed span old change ∈ pieces ∧
      ((change = .assignDefault ∧ name = TopLevel.defaultName) ∨
        ∃ value, (Statement.getter name value).text.toList <:+: change.text.toList) := by
  obtain ⟨⟨span, change⟩, hchange, hname⟩ := List.mem_flatMap.1 h
  obtain ⟨piece, hpiece, heq⟩ := List.mem_filterMap.1 hchange
  cases piece with
  | kept => cases heq
  | changed other old written =>
    cases heq
    exact ⟨_, _, _, hpiece, Change.infix_getter hname⟩

end Lowering

/-- A module and the lowered module, with the names that are defined on the exports. -/
structure Exporting (source code : String) (program : Program) (pieces : List Piece) : Prop extends
    Made source code program pieces where
  /-- The names are those under which the statements export. -/
  names : (definitions pieces).Perm (program.body.flatMap
    (Plan.ownNames (Analysis.ofOccurrences (program.occurrences .module))))
  /-- Each name has its getter in the text of a piece, or is assigned there. -/
  written : ∀ name ∈ definitions pieces, ∃ span old change, .changed span old change ∈ pieces ∧
    ((change = .assignDefault ∧ name = TopLevel.defaultName) ∨
      ∃ value, (Statement.getter name value).text.toList <:+: change.text.toList)

/-- What a plan makes of a module defines the names under which its statements export. -/
theorem exporting_of_made {source code : String} {subject : Subject}
    (hanalysis : subject.analysis =
      Analysis.ofOccurrences (subject.program.occurrences .module))
    (h : Made source code subject.program ((Plan.make subject).pieces subject.source)) :
    Exporting source code subject.program ((Plan.make subject).pieces subject.source) where
  toMade := h
  names := hanalysis ▸ Plan.definitions_pieces (Program.read_stands h.read) hanalysis
  written := fun _ => written_of_mem_definitions

/-- A lowered module defines the names under which its statements export. -/
theorem exporting_of_lower {id source : String} {lowered : Lowered}
    (h : lower id source = .ok lowered) :
    ∃ subject, examine id source = .ok subject ∧
      Exporting source lowered.code subject.program
        ((Plan.make subject).pieces subject.source) := by
  obtain ⟨subject, hsubject, hanalysis, hmade, -⟩ := made_of_lower h
  exact ⟨subject, hsubject, exporting_of_made hanalysis hmade⟩

/-- A module that exports a variable that it declares before. -/
def redeclared : String :=
  "var x = 1;\nexport var x = 2;\n"

/-- The variable is not defined. -/
theorem exporting_of_lower_redeclared :
    ∃ lowered, lower "a.js" redeclared = .ok lowered ∧
      ∃ subject, examine "a.js" redeclared = .ok subject ∧
        definitions ((Plan.make subject).pieces subject.source) = [] ∧
        Exporting redeclared lowered.code subject.program
          ((Plan.make subject).pieces subject.source) := by
  have hdefined : (examine "a.js" redeclared).toOption.map (fun subject =>
      definitions ((Plan.make subject).pieces subject.source)) = some [] := by decide +kernel
  obtain ⟨lowered, hlower⟩ :=
    exists_lower_of_isOk (by decide +kernel : (lower "a.js" redeclared).isOk = true)
  obtain ⟨subject, hsubject, hexporting⟩ := exporting_of_lower hlower
  rw [hsubject] at hdefined
  exact ⟨lowered, hlower, subject, hsubject, Option.some.inj hdefined, hexporting⟩

end Bundler

import Bundler.Graph.Discovery
import Bundler.Lowering.Plan
import Bundler.Script.Parser

/-!
# Lowering

A module made ready for a bundle: its imports and exports become calls of the loader.

* `lower`: the lowered module, or why it cannot be part of a bundle.
-/

namespace Bundler

/-- The extensions of files that are modules. -/
def moduleExtensions : List String := ["js", "mjs", "cjs"]

/-- Whether an extension, in letters of either case, is that of a module. -/
def isModuleExtension (extension : String) : Bool :=
  moduleExtensions.contains extension.toLower

namespace Lowering

open Script

/-- The error of a fault at an offset of a module. -/
def errorAt (id : String) (source : List Char) (offset : Nat) (fault : ModuleFault) : Error :=
  .transform id fault (Location.at? id source offset)

/-- The first binding at the top that has a name which the loader needs. -/
def loaderClash? (analysis : Analysis) : Option Ident :=
  analysis.top.reverse.find? fun id => loaderNames.contains id.name

/-- The first construct that a bundle has no means for, with its offset. -/
def unsupported? (occurrences : List Occurrence) : Option (Unsupported × Nat) :=
  occurrences.findSome? fun occurrence =>
    match occurrence with
    | .unsupported construct offset => some (construct, offset)
    | _ => none

/-- Reads a module and looks up its names, if it can be part of a bundle. -/
def examine (id : String) (source : String) : Except Error Subject := do
  let text := source.toList
  let program ← (Program.read .module source).mapError fun issue =>
    errorAt id text issue.offset (.malformed issue.text)
  let occurrences := program.occurrences .module
  let analysis := Analysis.ofOccurrences occurrences
  match analysis.issue? with
  | some issue => throw (errorAt id text issue.offset (.malformed issue.text))
  | none => pure ()
  match loaderClash? analysis with
  | some clash => throw (errorAt id text clash.span.start (.loaderName clash.name))
  | none => pure ()
  match unsupported? occurrences with
  | some (construct, offset) => throw (errorAt id text offset (.unsupported construct))
  | none => pure ()
  return { source := text, program, occurrences, analysis }

end Lowering

open Lowering in
/-- Makes a module ready for a bundle. -/
def lower : Transformer := fun id source => do
  let extension := (Path.extension? id).getD ""
  if !isModuleExtension extension then throw (.transform id (.extension extension) none)
  let subject ← examine id source
  let plan := Plan.make subject
  return {
    code := String.ofList (Edit.apply subject.source plan.edits)
    specifiers := plan.specifiers }

end Bundler

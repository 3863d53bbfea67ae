import Bundler.Config
import Bundler.FileStore
import Bundler.Report
import Bundler.Text.Position

/-!
# Emission

How the text of a bundle gets into its file. A bundle that is to be laid out is laid
out first, so one that cannot be leaves the files as they are.
-/

namespace Bundler

/-- How the text of a script is laid out. -/
abbrev Formatter := String → Except LayoutFault String

/-- A file that was written. -/
structure OutputFile where
  /-- The path of the file. -/
  path : String
  /-- The number of its bytes. -/
  size : Nat
  deriving DecidableEq, Repr

namespace Output

/-- The text that goes into the file of a bundle. -/
def finish (output : Output) (format : Formatter) (bundle : String) : Except Error String :=
  if output.format then (format bundle).mapError .format else .ok bundle

section

variable {m : Type → Type} [Monad m] [FileStore m] [Reporter m]

/-- Writes a bundle into its file and makes the directories it needs. -/
def emit (output : Output) (format : Formatter) (bundle : String) :
    ExceptT Error m OutputFile := do
  let text ← ExceptT.mk (pure (output.finish format bundle))
  match ← FileStore.makeDirectory output.directory with
  | .error fault => throw (.emit output.directory fault)
  | .ok () =>
    match ← FileStore.write output.file text with
    | .error fault => throw (.emit output.file fault)
    | .ok () =>
      let size := Text.byteLength text.toList
      Reporter.report (.written output.file size)
      return { path := output.file, size }

end

end Output

end Bundler

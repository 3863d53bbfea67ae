import Bundler.Bundle
import Bundler.Emission
import Bundler.Graph.Discovery

/-!
# Builds

A build finds the graph of an entry, writes the text of its bundle, and puts the text
into a file. Nothing is written unless the first two succeed.
-/

namespace Bundler

/-- What came of a build. -/
structure Receipt where
  /-- The identifier of the entry. -/
  entry : String
  /-- The number of modules in the bundle. -/
  modules : Nat
  /-- The file of the bundle. -/
  output : OutputFile
  /-- The time that the build took. -/
  time : Duration
  deriving DecidableEq, Repr

section

variable {m : Type → Type} [Monad m] [FileStore m] [Reporter m] [MonadIter m]

/-- Makes the bundle of a plan. -/
def Plan.build (plan : Plan) (transform : Transform m) (format : Formatter) :
    m (Except Error Receipt) :=
  timed "Build" fun start => ExceptT.run do
    Reporter.report .build
    Reporter.report (.entry plan.entry)
    Reporter.report (.output plan.output.file)
    let graph ← ExceptT.mk (discover transform ⟨plan.extensions⟩ plan.entry)
    match graph.entry? with
    | none => throw (.generate .noModules)
    | some entry =>
      let bundle ← ExceptT.mk (pure (Bundle.generate graph entry plan.strictCycles))
      Reporter.report (.generated graph.size (Text.byteLength bundle.toList))
      let output ← plan.output.emit format bundle
      let time ← elapsedSince start
      Reporter.report (.bundled graph.size output.path time)
      return { entry, modules := graph.size, output, time }

end

end Bundler

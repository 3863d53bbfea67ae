import Bundler.Graph
import Bundler.Json

/-!
# Bundles

The text of a bundle: one classic script, a call of a loader with an object that has
a property for each module, and with the identifier of the entry. A module's property
holds the function that stands for the module and the table of its dependencies. The
loader registers a module's exports before it runs the module, so cyclic imports end.

* `Bundle.fault?`: why a graph has no bundle;
* `Bundle.render`: the text of a bundle.
-/

namespace Bundler

namespace Bundle

/-- The loader up to the line that says whether cycles are strict. -/
def loaderHead : String :=
  "(function (modules, entry) \x7b\n" ++
  "\"use strict\";\n" ++
  "var cache = Object.create(null);\n"

/-- The line that says whether cycles are strict. -/
def cyclesLine (strictCycles : Bool) : String :=
  "var strictCycles = " ++ (if strictCycles then "true" else "false") ++ ";\n"

/-- The loader from there to its arguments. -/
def loaderBody : String :=
  "function requireModule(id) \x7b\n" ++
  "var cached = cache[id];\n" ++
  "if (cached) \x7b\n" ++
  "if (strictCycles && cached.loading && Object.keys(cached.exports).length === 0) \x7b\n" ++
  "var cycle = new Error(\"Module '\" + id + \"' was required again before it finished loading " ++
    "and has no exports yet\");\n" ++
  "cycle.name = \"CyclicExecutionError\";\n" ++
  "throw cycle;\n" ++
  "\x7d\n" ++
  "return cached.exports;\n" ++
  "\x7d\n" ++
  "if (!Object.prototype.hasOwnProperty.call(modules, id)) \x7b\n" ++
  "throw new Error(\"Cannot find module '\" + id + \"'\");\n" ++
  "\x7d\n" ++
  "var record = modules[id];\n" ++
  "var module = \x7b exports: \x7b\x7d, loading: true \x7d;\n" ++
  "cache[id] = module;\n" ++
  "function localRequire(specifier) \x7b\n" ++
  "if (!Object.prototype.hasOwnProperty.call(record.dependencies, specifier)) \x7b\n" ++
  "throw new Error(\"Cannot find module '\" + specifier + \"' from '\" + id + \"'\");\n" ++
  "\x7d\n" ++
  "return requireModule(record.dependencies[specifier]);\n" ++
  "\x7d\n" ++
  "try \x7b\n" ++
  "record.factory.call(undefined, localRequire, module.exports);\n" ++
  "\x7d catch (error) \x7b\n" ++
  "delete cache[id];\n" ++
  "throw error;\n" ++
  "\x7d\n" ++
  "module.loading = false;\n" ++
  "return module.exports;\n" ++
  "\x7d\n" ++
  "requireModule(entry);\n" ++
  "\x7d)("

/-- A table of dependencies as an object. -/
def tableText (table : Table) : String :=
  String.ofList (Json.compact (.object (table.entries.map fun entry =>
    Json.member entry.1 (.string entry.2))))

/-- The property of a module. -/
def property (module : Module) : String :=
  Text.quote module.id ++ ": \x7b\nfactory: function (require, exports) \x7b\n\"use strict\";\n" ++
    module.code ++ "\n\x7d,\ndependencies: " ++ tableText module.dependencies ++ "\n\x7d"

/-- The text of the bundle of a graph that starts at an entry. -/
def render (graph : Graph) (entry : String) (strictCycles : Bool) : String :=
  loaderHead ++ cyclesLine strictCycles ++ loaderBody ++ "\x7b\n" ++
    ",\n".intercalate (graph.modules.map property) ++ "\n\x7d, " ++ Text.quote entry ++ ");\n"

/-- Why a graph has no bundle that starts at an entry, if it has none: the entry must
    be a module of the graph, and so must every dependency. -/
def fault? (graph : Graph) (entry : String) : Option BundleFault :=
  if !graph.contains entry then some (.foreignEntry entry)
  else if !graph.isClosed then some (.notClosed graph.missing)
  else none

/-- The text of the bundle, or why there is none. -/
def generate (graph : Graph) (entry : String) (strictCycles : Bool) : Except Error String :=
  match fault? graph entry with
  | some fault => .error (.generate fault)
  | none => .ok (render graph entry strictCycles)

end Bundle

end Bundler

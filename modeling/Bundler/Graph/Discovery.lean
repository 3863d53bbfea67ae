import Bundler.FileStore
import Bundler.Graph
import Bundler.Report

/-!
# Discovery

How the graph of an entry is found: breadth first, each module read and transformed
once. A module's specifiers are resolved in the order in which it writes them, and a
file that was not seen before waits at the end of the queue.

* `Transformer.told`: a transformer as a build calls it;
* `Locator.locate`: the first file that answers to an identifier;
* `Search.visit`: one module read, transformed and resolved;
* `Search.turn`, `Search.run`: one turn of a search, and as many as it takes;
* `discover`: the graph of an entry, or the first thing that went wrong.
-/

namespace Bundler

/-- A module made ready for a bundle. -/
structure Lowered where
  /-- The body of the function that stands for the module. -/
  code : String
  /-- The specifiers that the module imports, each once. -/
  specifiers : List String
  deriving DecidableEq, Repr

/-- How the source of a module is made ready for a bundle. -/
abbrev Transformer := String → String → Except Error Lowered

/-- What a build calls to make the source of a module ready. -/
abbrev Transform (m : Type → Type) := String → String → m (Except Error Lowered)

/-- A transformer that tells when it is called and when it is done. -/
def Transformer.told {m : Type → Type} [Monad m] [Reporter m] (transform : Transformer) :
    Transform m := fun id source =>
  timed ("Transforming " ++ id) fun _ => pure (transform id source)

section

variable {m : Type → Type} [Monad m] [FileStore m]

/-- The first path of a list that leads to a file. -/
def firstFile : List String → m (Option String)
  | [] => pure none
  | path :: more => do
    if ← FileStore.isFile path then return some path else firstFile more

/-- The first file that answers to an identifier. -/
def Locator.locate (locator : Locator) (id : String) : m (Option String) :=
  firstFile (locator.candidates id)

/-- The identifier of an entry. -/
def Locator.entry (locator : Locator) (path : String) : ExceptT Error m String := do
  match ← locator.locate (Path.canonical path) with
  | some id => return id
  | none => throw (.entryNotFound path)

end

/-- How far a search has come. -/
structure Search where
  /-- The modules visited so far. -/
  graph : Graph
  /-- The identifiers that wait to be visited, the next one first. -/
  queue : List String
  /-- The identifiers that were ever in the queue. -/
  seen : List String

namespace Search

/-- The search that starts from an entry. -/
def start (entry : String) : Search :=
  { graph := .empty, queue := [entry], seen := [entry] }

/-- Puts a file into the queue, unless it was there before. -/
def enqueue (search : Search) (id : String) : Search :=
  if search.seen.contains id then search
  else { search with queue := search.queue ++ [id], seen := search.seen ++ [id] }

/-- The error of a module: the transformer's own, and any other in its words. -/
def moduleError (id : String) : Error → Error
  | .transform module fault location => .transform module fault location
  | error => .transform id (.other error.message) none

section

variable {m : Type → Type} [Monad m] [FileStore m] [Reporter m]

/-- The identifier that a specifier of a module stands for. -/
def dependency (locator : Locator) (id specifier : String) : ExceptT Error m String := do
  match Specifier.resolve id specifier with
  | .error reason => throw (.unresolved specifier id reason)
  | .ok path =>
    match ← locator.locate path with
    | some target => return target
    | none => throw (.unresolved specifier id (.noSuchFile path))

/-- Resolves the specifiers of a module one after another. -/
def dependencies (locator : Locator) (id : String) :
    List String → Table × Search → ExceptT Error m (Table × Search)
  | [], found => return found
  | specifier :: more, (table, search) => do
    let target ← dependency locator id specifier
    Reporter.report (.resolved specifier id target)
    dependencies locator id more (table.set specifier target, search.enqueue target)

/-- Visits a module: reads it, transforms it, and resolves its specifiers. -/
def visit (transform : Transform m) (locator : Locator) (id : String) (search : Search) :
    ExceptT Error m Search := do
  Reporter.report (.visiting id)
  match ← FileStore.read id with
  | .error fault =>
    throw (.transform id (.unreadable (Error.file fault).message) none)
  | .ok source =>
    match ← ExceptT.lift (transform id source) with
    | .error error => throw (moduleError id error)
    | .ok lowered =>
      let (table, search) ← dependencies locator id lowered.specifiers (.empty, search)
      return { search with graph := (search.graph.insert ⟨id, lowered.code, table⟩).2 }

/-- One turn of a search: a visit to the module that waits first, unless it is in the graph. If
    none waits, the graph is complete. -/
def turn (transform : Transform m) (locator : Locator) (search : Search) :
    ExceptT Error m (Search ⊕ Graph) := do
  match search.queue with
  | [] => return .inr search.graph
  | id :: queue =>
    if search.graph.contains id then return .inl { search with queue }
    return .inl (← visit transform locator id { search with queue })

variable [MonadIter m]

/-- Takes turns until the graph is complete. -/
def run (transform : Transform m) (locator : Locator) : Search → ExceptT Error m Graph :=
  MonadIter.iterate (turn transform locator)

end

end Search

section

variable {m : Type → Type} [Monad m] [FileStore m] [Reporter m] [MonadIter m]

/-- The graph of an entry. -/
def discover (transform : Transform m) (locator : Locator) (entry : String) :
    m (Except Error Graph) :=
  timed "Building dependency graph" fun _ => ExceptT.run do
    let id ← locator.entry entry
    let graph ← Search.run transform locator (Search.start id)
    Reporter.report (.closed graph.size)
    return graph

end

end Bundler

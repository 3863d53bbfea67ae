import Bundler.Error

/-!
# Module graphs

The modules of a bundle in the order in which they were found. Each has a table from
the specifiers that it writes to the identifiers that they stand for.

* `Table.set`: a table with one more specifier, or another target for an old one;
* `Graph.insert`: a graph with one more module, unless its identifier is taken;
* `Graph.missing`: the dependencies that lead out of a graph.
-/

namespace Bundler

/-- A table from specifiers to identifiers, in the order in which the specifiers
    first came. -/
structure Table where
  /-- The specifiers with their targets. -/
  entries : List (String × String)
  /-- Each specifier has one target. -/
  distinct : (entries.map Prod.fst).Nodup

namespace Table

/-- The table without specifiers. -/
def empty : Table :=
  ⟨[], List.nodup_nil⟩

/-- The specifiers of a table. -/
def keys (table : Table) : List String :=
  table.entries.map Prod.fst

/-- The entry of `specifier` led to `target`; any other as it is. -/
def redirect (specifier target : String) (entry : String × String) : String × String :=
  if entry.1 = specifier then (specifier, target) else entry

/-- Another target for a specifier leaves the specifiers as they are. -/
theorem fst_comp_redirect (specifier target : String) :
    Prod.fst ∘ redirect specifier target = Prod.fst := by
  funext entry
  by_cases h : entry.1 = specifier <;> simp [redirect, h]

/-- Lets `specifier` stand for `target`. A specifier that is there keeps its place. -/
def set (table : Table) (specifier target : String) : Table :=
  if h : specifier ∈ table.entries.map Prod.fst then
    ⟨table.entries.map (redirect specifier target), by
      rw [List.map_map, fst_comp_redirect]
      exact table.distinct⟩
  else
    ⟨table.entries ++ [(specifier, target)], by
      rw [List.map_append, List.nodup_append]
      refine ⟨table.distinct, List.nodup_cons.2 ⟨List.not_mem_nil, List.nodup_nil⟩, ?_⟩
      intro a ha b hb hab
      have hb : b = specifier := by simpa using hb
      exact h (hb ▸ hab ▸ ha)⟩

/-- The table of a list of specifiers with their targets. -/
def ofList (pairs : List (String × String)) : Table :=
  pairs.foldl (fun table pair => table.set pair.1 pair.2) empty

end Table

/-- A module of a graph. -/
structure Module where
  /-- The canonical identifier. -/
  id : String
  /-- The body of the function that stands for the module in a bundle. -/
  code : String
  /-- What the specifiers of the module stand for. -/
  dependencies : Table

/-- Modules with distinct identifiers, in the order in which they were found. -/
structure Graph where
  /-- The modules. -/
  modules : List Module
  /-- No two modules have one identifier. -/
  distinct : (modules.map Module.id).Nodup

namespace Graph

/-- The graph without modules. -/
def empty : Graph :=
  ⟨[], List.nodup_nil⟩

/-- The identifiers of a graph's modules. -/
def ids (graph : Graph) : List String :=
  graph.modules.map Module.id

/-- Whether an identifier belongs to a module of the graph. -/
def contains (graph : Graph) (id : String) : Bool :=
  graph.ids.contains id

/-- The module with an identifier. -/
def get? (graph : Graph) (id : String) : Option Module :=
  graph.modules.find? fun module => module.id == id

/-- The number of modules. -/
def size (graph : Graph) : Nat :=
  graph.modules.length

/-- The identifier of the module that was found first. -/
def entry? (graph : Graph) : Option String :=
  graph.ids.head?

/-- Adds a module after the others, unless its identifier is taken; and tells whether
    it was added. -/
def insert (graph : Graph) (module : Module) : Bool × Graph :=
  if h : module.id ∈ graph.modules.map Module.id then (false, graph)
  else
    (true, ⟨graph.modules ++ [module], by
      rw [List.map_append, List.nodup_append]
      refine ⟨graph.distinct, List.nodup_cons.2 ⟨List.not_mem_nil, List.nodup_nil⟩, ?_⟩
      intro a ha b hb hab
      have hb : b = module.id := by simpa using hb
      exact h (hb ▸ hab ▸ ha)⟩)

/-- The dependencies of a module that lead to none of `ids`. -/
def missingOf (ids : List String) (module : Module) : List MissingDependency :=
  (module.dependencies.entries.filter fun entry => !ids.contains entry.2).map
    fun entry => ⟨module.id, entry.1, entry.2⟩

/-- The dependencies that lead out of the graph, module by module. -/
def missing (graph : Graph) : List MissingDependency :=
  graph.modules.flatMap (missingOf graph.ids)

/-- Whether every dependency leads to a module of the graph. -/
def isClosed (graph : Graph) : Bool :=
  graph.missing.isEmpty

end Graph

end Bundler

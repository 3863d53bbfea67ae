import Bundler.Proofs.Build.Course
import Bundler.Proofs.Graph.Closure
import Bundler.Proofs.Graph.Insertion
import Bundler.Proofs.Graph.Reachability

/-!
# Bundles of complete graphs

A bundle is made of a graph if the entry and all targets are modules of it. What a search finds is
such a graph, so a build fails for many reasons but never for want of a module in its graph,
even if the store changes while it is searched.

* `Bundle.exists_generate_iff`: the graphs that have a bundle;
* `Bundle.generate_of_not_mem`, `Bundle.generate_of_mem`: why the others have none;
* `Plan.ensures_build`: why a build fails;
* `Bundle.generate_complete`: all that together.
-/

namespace Bundler

/-- The dependencies of a graph, module by module, in the order of their tables. -/
def Graph.dependencies (graph : Graph) : List MissingDependency :=
  graph.modules.flatMap fun module =>
    module.dependencies.entries.map fun entry => ⟨module.id, entry.1, entry.2⟩

/-- The dependencies that lead out of a graph, in the order of all. -/
theorem Graph.missing_eq (graph : Graph) :
    graph.missing = graph.dependencies.filter (·.target ∉ graph.ids) := by
  rw [missing, dependencies, List.filter_flatMap]
  refine List.flatMap_congr fun module _ => ?_
  rw [missingOf, List.filter_map]
  refine congrArg _ (List.filter_congr fun entry _ => ?_)
  simp

namespace Bundle

variable {graph : Graph} {entry : String} (strictCycles : Bool)

/-- A graph that lacks its entry has no bundle. -/
theorem generate_of_not_mem (h : entry ∉ graph.ids) :
    generate graph entry strictCycles = .error (.generate (.foreignEntry entry)) := by
  have hcontains : (!graph.contains entry) = true := by simpa [Graph.contains] using h
  rw [generate, fault?, if_pos hcontains]

/-- A graph that has its entry has a bundle if no dependency leads out of it. -/
theorem generate_of_mem (h : entry ∈ graph.ids) :
    generate graph entry strictCycles =
      if graph.missing = [] then .ok (render graph entry strictCycles)
      else .error (.generate (.notClosed graph.missing)) := by
  have hcontains : ¬(!graph.contains entry) = true := by simpa [Graph.contains] using h
  rw [generate, fault?, if_neg hcontains, Graph.isClosed]
  by_cases hmissing : graph.missing = []
  · rw [hmissing]
    rfl
  · rw [if_pos (by simpa using hmissing), if_neg hmissing]

theorem exists_generate_iff :
    (∃ text, generate graph entry strictCycles = .ok text) ↔
      entry ∈ graph.ids ∧ ∀ module ∈ graph.modules, ∀ pair ∈ module.dependencies.entries,
        pair.2 ∈ graph.ids := by
  rw [← Graph.isClosed_iff, Graph.isClosed, List.isEmpty_iff]
  by_cases hentry : entry ∈ graph.ids
  · rw [generate_of_mem strictCycles hentry, and_iff_right hentry]
    by_cases hmissing : graph.missing = []
    · rw [if_pos hmissing]
      exact iff_of_true ⟨_, rfl⟩ hmissing
    · rw [if_neg hmissing]
      refine iff_of_false ?_ hmissing
      rintro ⟨_, h⟩
      cases h
  · rw [generate_of_not_mem strictCycles hentry]
    refine iff_of_false ?_ fun h => hentry h.1
    rintro ⟨_, h⟩
    cases h

end Bundle

/-! ### Builds -/

section

variable {σ : Type} [FileStore (Run σ)] [Reporter (Run σ)]

/-- A bundle that is not put into its file is not laid out, or refused by the store. -/
theorem Output.ensures_emit (output : Output) (format : Formatter) (bundle : String) :
    Ensures (output.emit format bundle : ExceptT Error (Run σ) OutputFile).run
      (Fares (fun _ => True) Error.Elsewhere) := by
  have hfinish : Fares (fun _ => True) Error.Elsewhere (output.finish format bundle) := by
    unfold finish
    split
    · cases format bundle with
      | error fault => exact nofun
      | ok text => trivial
    · trivial
  unfold emit
  refine (Ensures.pure hfinish).andThen fun text _ => ?_
  refine (Ensures.trivial _).lift.andThen fun made _ => ?_
  cases made with
  | error fault => exact Ensures.fail nofun
  | ok =>
    refine (Ensures.trivial _).lift.andThen fun written _ => ?_
    cases written with
    | error fault => exact Ensures.fail nofun
    | ok => exact (Ensures.trivial _).lift.andThen fun _ _ => Ensures.ok trivial

/-- A build that fails has its cause elsewhere than in the graph. -/
theorem Plan.ensures_build (plan : Plan) (transform : Transform (Run σ)) (format : Formatter) :
    Ensures (plan.build transform format) (Fares (fun _ => True) Error.Elsewhere) := by
  refine Ensures.timed (fun start => ?_) _
  refine (Ensures.trivial _).lift.andThen fun _ _ => ?_
  refine (Ensures.trivial _).lift.andThen fun _ _ => ?_
  refine (Ensures.trivial _).lift.andThen fun _ _ => ?_
  refine Ensures.andThen (ensures_discover transform ⟨plan.extensions⟩ plan.entry) ?_
  rintro graph ⟨entry, hentry, hclosed⟩
  rw [hentry]
  obtain ⟨text, htext⟩ := (Bundle.exists_generate_iff plan.strictCycles).2
    ⟨List.mem_of_mem_head? hentry, Graph.isClosed_iff.1 hclosed⟩
  have hbundle : Fares (fun _ => True) Error.Elsewhere
      (Bundle.generate graph entry plan.strictCycles) := by
    rw [htext]
    trivial
  refine (Ensures.pure hbundle).andThen fun bundle _ => ?_
  refine (Ensures.trivial _).lift.andThen fun _ _ => ?_
  refine (plan.output.ensures_emit format bundle).andThen fun output _ => ?_
  have helapsed : Ensures (elapsedSince start : ExceptT Error (Run σ) Duration).run
      (Fares (fun _ => True) Error.Elsewhere) :=
    (Ensures.trivial _).lift.andThen fun _ _ => Ensures.ok trivial
  refine helapsed.andThen fun time _ => ?_
  exact (Ensures.trivial _).lift.andThen fun _ _ => Ensures.ok trivial

end

/-- Whatever was inserted into a graph, it has a bundle that starts at an entry just if the entry and
    all targets of its tables are modules of it. If the entry is not, the error names it; if it is
    and some targets are not, the error lists the dependencies on these in the order of the
    modules and of their tables. So a build never ends with such an error, in whatever store, which
    may change while it is searched, and however the transformer and the layout fail. -/
theorem Bundle.generate_complete :
    (∀ (graph : Graph) (entry : String) (strictCycles : Bool),
      let outside := graph.dependencies.filter (·.target ∉ graph.ids)
      ((∃ text, generate graph entry strictCycles = .ok text) ↔
        entry ∈ graph.ids ∧ ∀ module ∈ graph.modules, ∀ pair ∈ module.dependencies.entries,
          pair.2 ∈ graph.ids) ∧
      (entry ∉ graph.ids →
        generate graph entry strictCycles = .error (.generate (.foreignEntry entry))) ∧
      (entry ∈ graph.ids → outside ≠ [] →
        generate graph entry strictCycles = .error (.generate (.notClosed outside))) ∧
      (Error.generate (.foreignEntry entry)).message =
        "Bundle generation error: " ++
          ("entry '" ++ entry ++ "' is not part of the module graph") ∧
      (Error.generate (.notClosed outside)).message =
        "Bundle generation error: " ++ ("module graph is not closed: " ++
          ", ".intercalate (outside.map fun missing =>
            "'" ++ missing.specifier ++ "' from " ++ missing.referrer ++ " → " ++ missing.target))) ∧
    ∀ (σ : Type) [FileStore (Run σ)] [Reporter (Run σ)] (plan : Plan)
      (transform : Transform (Run σ)) (format : Formatter) (s s' : σ) (fault : BundleFault),
      plan.build transform format s ≠ some (.error (.generate fault), s') := by
  constructor
  · intro graph entry strictCycles outside
    have houtside : graph.missing = outside := graph.missing_eq
    refine ⟨exists_generate_iff strictCycles, generate_of_not_mem strictCycles,
      fun hentry hne => ?_, rfl, rfl⟩
    rw [generate_of_mem strictCycles hentry, houtside, if_neg hne]
  · intro σ _ _ plan transform format s s' fault hbuild
    exact plan.ensures_build transform format s _ s' hbuild fault rfl

/-- A transformer that fails as if it were to write a bundle. -/
def unbundled : Transformer := fun _ _ => .error (.generate .noModules)

theorem Bundle.generate_complete_open :
    let graph := Graph.ofList [Graph.linked "a" ["b", "c"], Graph.linked "b" ["a", "d"]]
    "x" ∉ graph.ids ∧
      generate graph "x" true = .error (.generate (.foreignEntry "x")) ∧
      "a" ∈ graph.ids ∧
      generate graph "a" true =
        .error (.generate (.notClosed [⟨"a", "./c", "c"⟩, ⟨"b", "./d", "d"⟩])) ∧
      ∃ error memory,
        ((Plan.ofEntry "a").build unbundled.told .ok : Run Memory (Except Error Receipt)) crossing =
          some (.error error, memory) ∧
        error =
          .transform "a.js" (.other "Bundle generation error: module graph is empty") none ∧
        ∀ fault, error ≠ .generate fault := by
  have within : ((View.of crossing).discoverWithin unbundled ⟨(Plan.ofEntry "a").extensions⟩ 1
      "a").map (·.1.map Graph.ids) = some (.error
        (.transform "a.js" (.other "Bundle generation error: module graph is empty") none)) := by
    decide +kernel
  intro graph
  obtain ⟨hgenerate, hbuild⟩ := generate_complete
  have hforeign : "x" ∉ graph.ids := by decide
  have hentry : "a" ∈ graph.ids := by decide
  have houtside : graph.dependencies.filter (·.target ∉ graph.ids) =
      [⟨"a", "./c", "c"⟩, ⟨"b", "./d", "d"⟩] := by decide
  have hopen := (hgenerate graph "a" true).2.2.1 hentry
  rw [houtside] at hopen
  obtain ⟨_, hdiscovers⟩ := View.exists_discovers_of_fails within
  have hfails := (Plan.ofEntry "a").build_of_discovers .ok hdiscovers
  refine ⟨hforeign, (hgenerate graph "x" true).2.1 hforeign, hentry, hopen (List.cons_ne_nil _ _), _,
    _, hfails, rfl, ?_⟩
  rintro fault heq
  exact hbuild Memory _ unbundled.told .ok crossing _ fault (heq ▸ hfails)

end Bundler

import Bundler.Proofs.Graph.Reachability
import Bundler.Proofs.Lowering.Apart

/-!
# What a lowered module asks for

A lowered module asks for other modules by calls of the loader's `require`, one in the place of
each statement that imports from a module or exports from one. The specifiers of these calls
are those that the lowering tells, so they are the keys of the module's table in a graph.

* `Plan.calls_pieces`: the calls in a lowered module;
* `Requiring`: a module and the lowered module, with the calls;
* `requires_lower`: the calls, the specifiers and the tables agree.
-/

namespace Bundler

open Script Lowering

namespace Lowering

namespace Plan

variable {subject : Subject}

/-- The changes that ask for modules are tried in the order of the statements. -/
theorem requests_inOrder (hstands : subject.program.Stands) :
    (make subject).inOrder.flatMap requests = subject.program.asks := by
  have hperm := ((make subject).inOrder_perm.flatMap_right requests).trans (make_requests subject)
  have hsorted : ((make subject).inOrder.flatMap requests).Pairwise fun one other =>
      one.1.start ≤ other.1.start := by
    refine List.pairwise_flatMap.2 ⟨fun one _ => ?_, (make subject).inOrder_sorted.imp ?_⟩
    · exact List.pairwise_map.2 (List.pairwise_of_forall fun _ _ => Nat.le_refl _)
    · intro one other hsorted call hcall next hnext
      rw [(mem_requests.1 hcall).1, (mem_requests.1 hnext).1]
      omega
  -- Both lists are in the order of the offsets, and no two calls stand at one offset.
  refine List.Perm.eq_of_pairwise ?_ hsorted (hstands.asks_sorted.imp Nat.le_of_lt) hperm
  intro one other hone hother hle hge
  exact hstands.asks_unique (hperm.subset hone) hother (Nat.le_antisymm hle hge)

/-- There is one call in the place of each statement that asks for a module, and no other. -/
theorem calls_pieces (hstands : subject.program.Stands)
    (hanalysis : subject.analysis =
      Analysis.ofOccurrences (subject.program.occurrences .module)) :
    calls ((make subject).pieces subject.source) = subject.program.asks := by
  refine (flatMap_made hstands hanalysis fun one huse => ?_).trans (requests_inOrder hstands)
  rw [requests, Change.requires_of_isUse huse, List.map_nil]

end Plan

end Lowering

/-- A module and the lowered module, with calls in the places of the statements that ask for other
    modules. -/
structure Requiring (source code : String) (program : Program) (pieces : List Piece) : Prop extends
    Made source code program pieces where
  /-- There is one call for each statement that asks for a module, in order. -/
  calls : Lowering.calls pieces = program.asks
  /-- The calls are written in the code. -/
  written : ∀ call ∈ program.asks, ∃ old change, .changed call.1 old change ∈ pieces ∧
    (Statement.requireText call.2).toList <:+: change.text.toList

/-- The calls in a lowered module are for the specifiers that the lowering tells. -/
theorem requiring_of_lower {id source : String} {lowered : Lowered}
    (h : lower id source = .ok lowered) :
    ∃ subject, examine id source = .ok subject ∧
      let pieces := (Plan.make subject).pieces subject.source
      Requiring source lowered.code subject.program pieces ∧
      lowered.specifiers.Nodup ∧
      ∀ specifier, specifier ∈ lowered.specifiers ↔ specifier ∈ (calls pieces).map (·.2) := by
  obtain ⟨subject, hsubject, hanalysis, hmade, hspecifiers⟩ := made_of_lower h
  have hcalls := Plan.calls_pieces (Program.read_stands hmade.read) hanalysis
  obtain ⟨hnodup, hmem⟩ := Plan.make_specifiers subject
  refine ⟨subject, hsubject, ?_, ?_, ?_⟩
  · exact {
      hmade with
      calls := hcalls
      written := fun call hcall => written_of_mem_calls (hcalls ▸ hcall) }
  · rwa [hspecifiers]
  · rwa [hspecifiers, hcalls]

/-! ### Graphs -/

section

variable {σ : Type} [FileStore (StateM σ)] [Reporter (StateM σ)] [Steady σ]

/-- What the modules of a graph give, and that they lead to modules of it. -/
theorem gives_of_discover {transform : Transformer} {locator : Locator} {path : String} {s s' : σ}
    {graph : Graph}
    (h : (discover transform.told locator path : Run σ (Except Error Graph)) s =
      some (.ok graph, s')) :
    ∀ module ∈ graph.modules, (View.of s).Gives transform locator module ∧
      ∀ entry ∈ module.dependencies.entries, entry.2 ∈ graph.ids := by
  obtain ⟨_, last, -, hsteps, hq, rfl⟩ := steps_of_discover h
  have hs := Search.Sound.start.run hsteps
  have hseen := hs.seen_eq_ids hq
  exact fun module hm => ⟨hs.gives module hm, hseen ▸ hs.targets module hm⟩

/-- A lowered module has one call of `require` in the place of each statement that imports from a
    module or exports from one, and the lowering tells the specifiers of these calls, each once.
    In a graph each call finds its specifier in the table of its module, where it stands for a
    module of the graph, and no table has other specifiers. -/
theorem requires_lower :
    (∀ id source lowered, lower id source = .ok lowered →
      ∃ subject, examine id source = .ok subject ∧
        let pieces := (Plan.make subject).pieces subject.source
        Requiring source lowered.code subject.program pieces ∧
        lowered.specifiers.Nodup ∧
        ∀ specifier, specifier ∈ lowered.specifiers ↔
          specifier ∈ (calls pieces).map (·.2)) ∧
    ∀ (locator : Locator) (path : String) (s s' : σ) (graph : Graph),
      (discover lower.told locator path : Run σ (Except Error Graph)) s = some (.ok graph, s') →
      ∀ module ∈ graph.modules, ∃ source subject,
        (View.of s).read module.id = .ok source ∧ examine module.id source = .ok subject ∧
        let pieces := (Plan.make subject).pieces subject.source
        Requiring source module.code subject.program pieces ∧
        (∀ specifier ∈ (calls pieces).map (·.2), ∃ target,
          (specifier, target) ∈ module.dependencies.entries ∧ target ∈ graph.ids) ∧
        ∀ specifier ∈ module.dependencies.keys, specifier ∈ (calls pieces).map (·.2) := by
  refine ⟨fun id source lowered h => requiring_of_lower h, ?_⟩
  intro locator path s s' graph h module hm
  obtain ⟨⟨source, lowered, hread, hlower, hcode, hkeys, -⟩, htargets⟩ :=
    gives_of_discover h module hm
  obtain ⟨subject, hsubject, hrequiring, -, hmem⟩ := requiring_of_lower hlower
  have hkey : ∀ specifier, specifier ∈ module.dependencies.keys ↔
      specifier ∈ (calls ((Plan.make subject).pieces subject.source)).map (·.2) := by
    intro specifier
    rw [hkeys, List.mem_eraseDups, hmem]
  refine ⟨source, subject, hread, hsubject, hcode ▸ hrequiring, ?_, fun _ h => (hkey _).1 h⟩
  intro specifier hcall
  obtain ⟨⟨_, target⟩, hentry, rfl⟩ := List.mem_map.1 ((hkey specifier).2 hcall)
  exact ⟨target, hentry, htargets _ hentry⟩

end

/-- A module that asks for another one twice. -/
def twice : String :=
  "import './b.js';\nexport \x7b x \x7d from './b.js';\n"

/-- That module and the other one. -/
def pair : Memory where
  files := [("a.js", twice), ("b.js", "export const x = 1;\n")]
  refusedReads := []
  refusedWrites := []
  refusedDirectories := []
  journal := []

theorem requires_lower_twice :
    ∃ lowered graph memory, lower "a.js" twice = .ok lowered ∧
      (discover lower.told ⟨[".js"]⟩ "a" : Run Memory (Except Error Graph)) pair =
        some (.ok graph, memory) ∧
      lowered.specifiers = ["./b.js"] ∧ graph.ids = ["a.js", "b.js"] ∧
      (∃ subject, examine "a.js" twice = .ok subject ∧
        let pieces := (Plan.make subject).pieces subject.source
        Requiring twice lowered.code subject.program pieces ∧
        lowered.specifiers.Nodup ∧
        ∀ specifier, specifier ∈ lowered.specifiers ↔
          specifier ∈ (calls pieces).map (·.2)) ∧
      ∀ module ∈ graph.modules, ∃ source subject,
        (View.of pair).read module.id = .ok source ∧ examine module.id source = .ok subject ∧
        let pieces := (Plan.make subject).pieces subject.source
        Requiring source module.code subject.program pieces ∧
        (∀ specifier ∈ (calls pieces).map (·.2), ∃ target,
          (specifier, target) ∈ module.dependencies.entries ∧ target ∈ graph.ids) ∧
        ∀ specifier ∈ module.dependencies.keys, specifier ∈ (calls pieces).map (·.2) := by
  have hlower : (lower "a.js" twice).toOption.map Lowered.specifiers = some ["./b.js"] := by
    decide +kernel
  have within : ((View.of pair).discoverWithin lower ⟨[".js"]⟩ 2 "a").bind
      (·.1.toOption.map Graph.ids) = some ["a.js", "b.js"] := by
    decide +kernel
  obtain ⟨graph, memory, hgraph, hids⟩ := exists_discover within
  cases hl : lower "a.js" twice with
  | error error =>
    rw [hl] at hlower
    cases hlower
  | ok lowered =>
    rw [hl] at hlower
    exact ⟨lowered, graph, memory, rfl, hgraph, Option.some.inj hlower, hids,
      (@requires_lower Memory _ _ _).1 "a.js" twice lowered hl,
      (@requires_lower Memory _ _ _).2 ⟨[".js"]⟩ "a" pair memory graph hgraph⟩

end Bundler

import Bundler.Proofs.Graph.Reachability
import Bundler.Proofs.Path.Candidates

/-!
# The spelling of identifiers

An identifier is a path that was tried and led to a file. What is tried is in its canonical
spelling if the endings are plain, so in a graph no path has two spellings, and no file two modules.

* `Locator.IsPlain`: endings that are a dot with letters or digits;
* `View.canonical_of_locate`: how the file is spelled that is found for an identifier;
* `discover_canonical`: how the identifiers of a graph are spelled.
-/

namespace Bundler

/-! ### Endings -/

namespace Locator

/-- An ending of a dot and one or more letters or digits of ASCII. -/
def IsPlain (ending : String) : Prop :=
  ∃ name : List Char, ending.toList = '.' :: name ∧ name ≠ [] ∧ ∀ c ∈ name, c.isAlphanum = true

theorem isPlain_of_mem_defaultExtensions :
    ∀ ending ∈ defaultExtensions, IsPlain ending := by
  intro ending h
  have h : ending = ".js" ∨ ending = ".mjs" ∨ ending = ".cjs" := by
    simpa [defaultExtensions] using h
  rcases h with rfl | rfl | rfl
  · exact ⟨['j', 's'], rfl, List.cons_ne_nil _ _, List.all_eq_true.1 rfl⟩
  · exact ⟨['m', 'j', 's'], rfl, List.cons_ne_nil _ _, List.all_eq_true.1 rfl⟩
  · exact ⟨['c', 'j', 's'], rfl, List.cons_ne_nil _ _, List.all_eq_true.1 rfl⟩

/-- A letter or digit neither divides segments nor is a dot. -/
theorem not_divider_of_isAlphanum {c : Char} (h : c.isAlphanum = true) :
    Path.Route.isDivider c = false ∧ c ≠ '.' := by
  refine ⟨?_, ?_⟩
  · rw [Path.Route.isDivider, Bool.or_eq_false_iff, beq_eq_false_iff_ne, beq_eq_false_iff_ne]
    refine ⟨?_, ?_⟩
    · rintro rfl
      exact absurd h (by decide)
    · rintro rfl
      exact absurd h (by decide)
  · rintro rfl
    exact absurd h (by decide)

/-- A plain ending is a name. -/
theorem IsPlain.isName {ending : String} (h : IsPlain ending) : Path.IsName ending.toList := by
  obtain ⟨name, hending, hne, hname⟩ := h
  obtain ⟨c, more, rfl⟩ := List.exists_cons_of_ne_nil hne
  rw [hending]
  constructor
  case active => simp [Path.isIdle]
  case ne_parent =>
    intro heq
    exact (not_divider_of_isAlphanum (hname c (.head _))).2 (by simp_all)
  case undivided =>
    exact List.forall_mem_cons.2 ⟨by decide, fun c hc => (not_divider_of_isAlphanum (hname c hc)).1⟩

end Locator

/-- A specifier stands for an identifier in its canonical spelling. -/
theorem Specifier.canonical_of_resolve {module specifier path : String}
    (h : Specifier.resolve module specifier = .ok path) : Path.canonical path = path := by
  unfold resolve at h
  split at h
  · cases h
  split at h
  · obtain rfl := Except.ok.inj h
    exact Path.canonical_canonical _
  split at h
  · cases h
  · obtain rfl := Except.ok.inj h
    exact Path.canonical_canonical _

/-! ### Graphs -/

section

variable {v : View} {transform : Transformer} {locator : Locator}

theorem View.canonical_of_locate (hplain : ∀ ending ∈ locator.extensions, Locator.IsPlain ending)
    {id file : String} (hid : Path.canonical id = id) (h : v.locate locator id = some file) :
    Path.canonical file = file :=
  have hnames := fun ending hending => Path.canonical_root_append (hplain ending hending).isName
  (Locator.canonical_candidates_iff locator).2 hnames id hid file (List.mem_of_find?_eq_some h)

/-- What a search has seen is in its canonical spelling. -/
theorem Search.Sound.canonical {entry path : String} {search : Search}
    (hs : Search.Sound v transform locator entry search)
    (hplain : ∀ ending ∈ locator.extensions, Locator.IsPlain ending)
    (hentry : v.locate locator (Path.canonical path) = some entry) :
    ∀ id ∈ search.seen, Path.canonical id = id := by
  intro id hid
  cases hs.reached id hid with
  | refl => exact View.canonical_of_locate hplain (Path.canonical_canonical path) hentry
  | tail _ hr =>
    obtain ⟨_, _, _, _, -, -, -, hresolve, hfile⟩ := hr
    exact View.canonical_of_locate hplain (Specifier.canonical_of_resolve hresolve) hfile

end

section

variable {σ : Type} [FileStore (StateM σ)] [Reporter (StateM σ)] [Steady σ]

/-- Where the endings are plain, as those are that are tried if nothing else is said, all
    identifiers and targets of a graph are in their canonical spelling. So no two identifiers spell
    one path, specifiers that resolve to one path have one target, and each target belongs to one
    module and to no other spelling of it. -/
theorem discover_canonical (transform : Transformer) (locator : Locator) (path : String) (s s' : σ)
    (graph : Graph) (hplain : ∀ ending ∈ locator.extensions, Locator.IsPlain ending)
    (h : (discover transform.told locator path : Run σ (Except Error Graph)) s =
      some (.ok graph, s')) :
    (∀ ending ∈ Locator.defaultExtensions, Locator.IsPlain ending) ∧
    (∀ id ∈ graph.ids, Path.canonical id = id) ∧
    (∀ module ∈ graph.modules, ∀ entry ∈ module.dependencies.entries,
      Path.canonical entry.2 = entry.2 ∧
      ∃! target, target ∈ graph.modules ∧ Path.canonical target.id = Path.canonical entry.2) ∧
    (∀ id ∈ graph.ids, ∀ other ∈ graph.ids, Path.canonical id = Path.canonical other →
      id = other) ∧
    ∀ one ∈ graph.modules, ∀ entry ∈ one.dependencies.entries,
      ∀ other ∈ graph.modules, ∀ entry' ∈ other.dependencies.entries,
        Specifier.resolve one.id entry.1 = Specifier.resolve other.id entry'.1 →
        entry.2 = entry'.2 := by
  obtain ⟨entry, last, hentry, hsteps, hq, rfl⟩ := steps_of_discover h
  have hs := Search.Sound.start.run hsteps
  have hseen := hs.seen_eq_ids hq
  have hids : ∀ id ∈ last.graph.ids, Path.canonical id = id := hseen ▸ hs.canonical hplain hentry
  have htargets := hs.targets
  rw [hseen] at htargets
  -- Identifiers that spell one path are one, since each is its own canonical spelling.
  have heq : ∀ id ∈ last.graph.ids, ∀ other ∈ last.graph.ids,
      Path.canonical id = Path.canonical other → id = other := by
    intro id hid other hother hsame
    rwa [hids id hid, hids other hother] at hsame
  refine ⟨Locator.isPlain_of_mem_defaultExtensions, hids, ?_, heq, ?_⟩
  · intro module hm use huse
    have hmem := htargets module hm use huse
    refine ⟨hids _ hmem, ?_⟩
    obtain ⟨target, htarget, hid⟩ := List.mem_map.1 hmem
    refine ⟨target, ⟨htarget, by rw [hid]⟩, fun other ⟨hother, hsame⟩ => ?_⟩
    have hid' := heq _ (List.mem_map_of_mem hother) _ hmem hsame
    exact List.inj_on_of_nodup_map last.graph.distinct hother htarget (hid'.trans hid.symm)
  · intro one hone use huse other hother use' huse' hsame
    obtain ⟨_, _, -, -, -, -, hfiles⟩ := hs.gives one hone
    obtain ⟨_, _, -, -, -, -, hfiles'⟩ := hs.gives other hother
    obtain ⟨resolved, hresolved, hfile⟩ := hfiles use huse
    obtain ⟨resolved', hresolved', hfile'⟩ := hfiles' use' huse'
    rw [hresolved, hresolved'] at hsame
    obtain rfl := Except.ok.inj hsame
    exact Option.some.inj (hfile.symm.trans hfile')

end

/-- A transformer for which each letter of a source names a file in two spellings. -/
def respelled : Transformer := fun _ source =>
  .ok
    { code := source
      specifiers := source.toList.flatMap fun letter =>
        ["./" ++ letter.toString, "./lib/.././" ++ letter.toString ++ ".js"] }

theorem discover_crossing_canonical :
    (∀ ending ∈ Locator.defaultExtensions, Locator.IsPlain ending) ∧
      ∃ graph memory,
        (discover respelled.told ⟨Locator.defaultExtensions⟩ "./lib/..//a" :
          Run Memory (Except Error Graph)) crossing = some (.ok graph, memory) ∧
        graph.ids = ["a.js", "b.js", "c.js"] ∧
        (∀ id ∈ graph.ids, Path.canonical id = id) ∧
        (∀ module ∈ graph.modules, ∀ entry ∈ module.dependencies.entries,
          Path.canonical entry.2 = entry.2 ∧
          ∃! target, target ∈ graph.modules ∧ Path.canonical target.id = Path.canonical entry.2) ∧
        (∀ id ∈ graph.ids, ∀ other ∈ graph.ids, Path.canonical id = Path.canonical other →
          id = other) ∧
        ∀ one ∈ graph.modules, ∀ entry ∈ one.dependencies.entries,
          ∀ other ∈ graph.modules, ∀ entry' ∈ other.dependencies.entries,
            Specifier.resolve one.id entry.1 = Specifier.resolve other.id entry'.1 →
            entry.2 = entry'.2 := by
  have within : ((View.of crossing).discoverWithin respelled ⟨Locator.defaultExtensions⟩ 3
      "./lib/..//a").bind (·.1.toOption.map Graph.ids) = some ["a.js", "b.js", "c.js"] := by
    decide +kernel
  obtain ⟨graph, memory, hgraph, hids⟩ := exists_discover within
  have hplain := Locator.isPlain_of_mem_defaultExtensions
  exact ⟨hplain, graph, memory, hgraph, hids,
    (discover_canonical respelled ⟨Locator.defaultExtensions⟩ "./lib/..//a" crossing memory graph
      hplain hgraph).2⟩

end Bundler

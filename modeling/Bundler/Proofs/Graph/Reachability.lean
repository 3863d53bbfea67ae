import Bundler.Proofs.Graph.Searches

/-!
# The graph of an entry

In a steady store a search that gives a graph finds the modules that can be reached from its
entry, all of them and no others, and each of them as its file has it. The search keeps an
invariant (`Search.Sound`): the modules that were seen are those visited and those that wait, in
that order; all of them can be reached; and what the visited ones depend on was seen.

* `View.Requires`: a module imports another one;
* `View.Gives`: a module of a graph is what its file gives;
* `Search.Sound.step`, `Search.Sound.run`: what a step keeps, and so what a search keeps;
* `discover_eq_ok`: the graph of an entry.
-/

namespace Bundler

namespace View

section

variable (v : View) (transform : Transformer) (locator : Locator)

/-- The source of `id` has a specifier that stands for `target`. -/
def Requires (id target : String) : Prop :=
  ∃ source lowered specifier path, v.read id = .ok source ∧ transform id source = .ok lowered ∧
    specifier ∈ lowered.specifiers ∧ Specifier.resolve id specifier = .ok path ∧
    v.locate locator path = some target

/-- A module has the code that its file is transformed to, and a table with the specifiers
    of its file, each at its first place with the file that it stands for. -/
def Gives (module : Module) : Prop :=
  ∃ source lowered, v.read module.id = .ok source ∧ transform module.id source = .ok lowered ∧
    module.code = lowered.code ∧
    module.dependencies.keys = lowered.specifiers.eraseDups ∧
    ∀ entry ∈ module.dependencies.entries, ∃ path,
      Specifier.resolve module.id entry.1 = .ok path ∧ v.locate locator path = some entry.2

end

variable {v : View} {transform : Transformer} {locator : Locator}

theorem target_ok {id specifier target : String}
    (h : v.target locator id specifier = .ok target) :
    ∃ path, Specifier.resolve id specifier = .ok path ∧ v.locate locator path = some target := by
  unfold View.target at h
  split at h
  next => cases h
  next path hp =>
    split at h
    next found hl => exact ⟨path, hp, by simpa using hl.trans (congrArg some (Except.ok.inj h))⟩
    next => cases h

theorem targets_ok {id : String} {specifiers : List String} {pairs : List (String × String)}
    (h : v.targets locator id specifiers = .ok pairs) :
    pairs.map Prod.fst = specifiers ∧ ∀ pair ∈ pairs, v.target locator id pair.1 = .ok pair.2 := by
  induction specifiers generalizing pairs with
  | nil =>
    obtain rfl : pairs = [] := (Except.ok.inj h).symm
    exact ⟨rfl, fun _ hp => absurd hp List.not_mem_nil⟩
  | cons specifier specifiers ih =>
    rw [targets, List.mapM_cons] at h
    cases ht : v.target locator id specifier with
    | error error =>
      rw [ht] at h
      cases h
    | ok target =>
      cases hr : v.targets locator id specifiers with
      | error error =>
        rw [View.targets] at hr
        rw [ht, hr] at h
        cases h
      | ok rest =>
        obtain ⟨hkeys, htargets⟩ := ih hr
        rw [View.targets] at hr
        rw [ht, hr] at h
        obtain rfl : pairs = (specifier, target) :: rest := (Except.ok.inj h).symm
        refine ⟨congrArg _ hkeys, fun pair hp => ?_⟩
        rcases List.mem_cons.1 hp with rfl | hp
        · exact ht
        · exact htargets pair hp

/-- A visit reads a source, transforms it, and finds what its specifiers stand for. -/
theorem lowered_of_visit {id code : String} {pairs : List (String × String)}
    (h : v.visit transform locator id = .ok (code, pairs)) :
    ∃ source lowered, v.read id = .ok source ∧ transform id source = .ok lowered ∧
      lowered.code = code ∧ pairs.map Prod.fst = lowered.specifiers ∧
      ∀ pair ∈ pairs, v.target locator id pair.1 = .ok pair.2 := by
  unfold View.visit at h
  split at h
  next => cases h
  next source hs =>
    split at h
    next => cases h
    next lowered hl =>
      cases ht : v.targets locator id lowered.specifiers with
      | error error =>
        rw [ht] at h
        cases h
      | ok found =>
        rw [ht] at h
        obtain ⟨rfl, rfl⟩ : lowered.code = code ∧ found = pairs := Prod.mk.inj (Except.ok.inj h)
        exact ⟨source, lowered, hs, hl, rfl, targets_ok ht⟩

/-- What a visit gives: what its file says, and modules that it requires. -/
theorem visit_ok {id code : String} {pairs : List (String × String)}
    (h : v.visit transform locator id = .ok (code, pairs)) :
    v.Gives transform locator ⟨id, code, Table.ofList pairs⟩ ∧
      ∀ pair ∈ pairs, v.Requires transform locator id pair.2 := by
  obtain ⟨source, lowered, hs, hl, rfl, hkeys, htargets⟩ := lowered_of_visit h
  refine ⟨⟨source, lowered, hs, hl, rfl, ?_, ?_⟩, ?_⟩
  · rw [Table.keys_ofList, hkeys]
  · intro entry he
    exact target_ok (htargets entry (Table.mem_of_mem_ofList he))
  · intro pair hp
    obtain ⟨path, hpath, hfile⟩ := target_ok (htargets pair hp)
    have : pair.1 ∈ lowered.specifiers := hkeys ▸ List.mem_map_of_mem hp
    exact ⟨source, lowered, pair.1, path, hs, hl, this, hpath, hfile⟩

/-- A module that gives what its file says has all that its file requires in its table. -/
theorem Gives.target_mem {module : Module} (h : v.Gives transform locator module)
    {target : String} (hr : v.Requires transform locator module.id target) :
    ∃ entry ∈ module.dependencies.entries, entry.2 = target := by
  obtain ⟨source, lowered, hs, hl, -, hkeys, htargets⟩ := h
  obtain ⟨source', lowered', specifier, path, hs', hl', hm, hpath, hfile⟩ := hr
  obtain rfl : source = source' := Except.ok.inj (hs.symm.trans hs')
  obtain rfl : lowered = lowered' := Except.ok.inj (hl.symm.trans hl')
  have hk : specifier ∈ module.dependencies.keys := by
    rw [hkeys]
    exact List.mem_eraseDups.2 hm
  obtain ⟨entry, he, rfl⟩ := List.mem_map.1 hk
  obtain ⟨path', hpath', hfile'⟩ := htargets entry he
  obtain rfl : path' = path := Except.ok.inj (hpath'.symm.trans hpath)
  exact ⟨entry, he, Option.some.inj (hfile'.symm.trans hfile)⟩

end View

namespace Search

/-- What holds of a search from an entry all along. -/
structure Sound (v : View) (transform : Transformer) (locator : Locator) (entry : String)
    (search : Search) : Prop extends Orderly search where
  /-- The entry is seen first. -/
  head : search.seen.head? = some entry
  /-- What is seen can be reached. -/
  reached : ∀ id ∈ search.seen,
    Relation.ReflTransGen (v.Requires transform locator) entry id
  /-- What was visited is as its file has it. -/
  gives : ∀ module ∈ search.graph.modules, v.Gives transform locator module
  /-- What a visited module depends on was seen. -/
  targets : ∀ module ∈ search.graph.modules, ∀ pair ∈ module.dependencies.entries,
    pair.2 ∈ search.seen

variable {v : View} {transform : Transformer} {locator : Locator} {entry : String}
  {search next : Search}

namespace Sound

theorem start : Sound v transform locator entry (Search.start entry) where
  toOrderly := .start entry
  head := rfl
  reached id hi := by
    obtain rfl : id = entry := List.mem_singleton.1 hi
    exact .refl
  gives _ hm := absurd hm List.not_mem_nil
  targets _ hm := absurd hm List.not_mem_nil

/-- With each step there is one module more. -/
theorem size_step (hs : Sound v transform locator entry search)
    (h : Step v transform locator search next) : next.graph.size = search.graph.size + 1 := by
  obtain @⟨id, code, queue, pairs, hq, -⟩ := h
  have hids := congrArg List.length (hs.ids_visited hq code pairs)
  rwa [List.length_append, Graph.ids, Graph.ids, List.length_map, List.length_map] at hids

/-- One visit keeps the invariant. -/
theorem step (hs : Sound v transform locator entry search)
    (h : Step v transform locator search next) : Sound v transform locator entry next := by
  obtain @⟨id, code, queue, pairs, hq, hv⟩ := h
  obtain ⟨hgives, hrequires⟩ := View.visit_ok hv
  have hseen : search.seen = search.graph.ids ++ id :: queue := hq ▸ hs.seen_eq
  have hid : id ∈ search.seen := by
    rw [hseen]
    exact List.mem_append_right _ List.mem_cons_self
  -- The module that is visited is new, so it stands behind the others.
  have hmodules : (search.graph.insert ⟨id, code, Table.ofList pairs⟩).2.modules =
      search.graph.modules ++ [⟨id, code, Table.ofList pairs⟩] :=
    Graph.modules_insert (hs.fresh hq)
  have horderly := hs.visited hq code pairs
  rw [visited_eq] at horderly ⊢
  constructor
  case toOrderly => exact horderly
  case head => simp [List.head?_append, hs.head]
  case reached =>
    intro other ho
    rcases List.mem_append.1 ho with ho | ho
    · exact hs.reached other ho
    · obtain ⟨pair, hp, rfl⟩ := List.mem_map.1 (mem_unseen.1 ho).1
      exact (hs.reached id hid).tail (hrequires pair hp)
  case gives =>
    intro module hm
    rw [hmodules] at hm
    rcases List.mem_append.1 hm with hm | hm
    · exact hs.gives module hm
    · obtain rfl := List.mem_singleton.1 hm
      exact hgives
  case targets =>
    intro module hm pair hp
    rw [hmodules] at hm
    rcases List.mem_append.1 hm with hm | hm
    · exact List.mem_append_left _ (hs.targets module hm pair hp)
    · obtain rfl := List.mem_singleton.1 hm
      -- A target waits already, or it is put into the queue now.
      by_cases h : pair.2 ∈ search.seen
      · exact List.mem_append_left _ h
      · have := List.mem_map_of_mem (f := Prod.snd) (Table.mem_of_mem_ofList hp)
        exact List.mem_append_right _ (mem_unseen.2 ⟨this, h⟩)

/-- As many visits as it takes keep the invariant. -/
theorem run (hs : Sound v transform locator entry search)
    (h : Relation.ReflTransGen (Step v transform locator) search next) :
    Sound v transform locator entry next := by
  induction h with
  | refl => exact hs
  | tail _ hstep ih => exact ih.step hstep

/-- When nothing waits any more, what was seen was visited. -/
theorem seen_eq_ids (hs : Sound v transform locator entry search) (hq : search.queue = []) :
    search.seen = search.graph.ids := by
  rw [hs.seen_eq, hq, List.append_nil]

/-- When nothing waits any more, the modules visited are those that can be reached. -/
theorem mem_ids_iff (hs : Sound v transform locator entry search) (hq : search.queue = [])
    (id : String) :
    id ∈ search.graph.ids ↔ Relation.ReflTransGen (v.Requires transform locator) entry id := by
  have hseen := hs.seen_eq_ids hq
  constructor
  · intro hi
    exact hs.reached id (hseen ▸ hi)
  · intro h
    induction h with
    | refl => exact hseen ▸ List.mem_of_mem_head? hs.head
    | tail _ hr ih =>
      obtain ⟨module, hm, rfl⟩ := List.mem_map.1 ih
      obtain ⟨pair, hp, rfl⟩ := (hs.gives module hm).target_mem hr
      exact hseen ▸ hs.targets module hm pair hp

end Sound

end Search

section

variable {σ : Type} [FileStore (StateM σ)] [Reporter (StateM σ)] [Steady σ]

/-- The graph that is found for an entry starts with it, has the modules that can be reached
    from it, each as its file has it, and is closed. -/
theorem discover_eq_ok (transform : Transformer) (locator : Locator) (path : String) (s s' : σ)
    (graph : Graph)
    (h : (discover transform.told locator path : Run σ (Except Error Graph)) s =
      some (.ok graph, s')) :
    ∃ id looked, (locator.entry path : ExceptT Error (Run σ) String).run s = some (.ok id, looked) ∧
      graph.entry? = some id ∧
      graph.ids.Nodup ∧
      (∀ other, other ∈ graph.ids ↔
        Relation.ReflTransGen ((View.of s).Requires transform locator) id other) ∧
      (∀ module ∈ graph.modules, (View.of s).Gives transform locator module) ∧
      graph.isClosed = true := by
  obtain ⟨id, last, hid, hsteps, hq, rfl⟩ := steps_of_discover h
  have hs := Search.Sound.start.run hsteps
  have hseen := hs.seen_eq_ids hq
  have hentry := runs_entry (View.of s) locator path s rfl
  rw [View.entry, hid] at hentry
  refine ⟨id, _, hentry, ?_, hseen ▸ hs.nodup, hs.mem_ids_iff hq, hs.gives, ?_⟩
  · rw [Graph.entry?, ← hseen, hs.head]
  · exact Graph.isClosed_iff.2 (hseen ▸ hs.targets)

end

/-- Three files: the first names the two others, the second the third and the first, and the
    third itself. -/
def crossing : Memory where
  files := [("a.js", "bc"), ("b.js", "ca"), ("c.js", "c")]
  refusedReads := []
  refusedWrites := []
  refusedDirectories := []
  journal := []

/-- A transformer for which each letter of a source names a file. -/
def lettered : Transformer := fun _ source =>
  .ok { code := source, specifiers := source.toList.map fun letter => "./" ++ letter.toString }

theorem discover_crossing_eq_ok :
    ∃ graph memory,
      (discover lettered.told ⟨[".js"]⟩ "a" : Run Memory (Except Error Graph)) crossing =
        some (.ok graph, memory) ∧
      graph.ids = ["a.js", "b.js", "c.js"] ∧
      ∃ id looked,
        (Locator.entry ⟨[".js"]⟩ "a" : ExceptT Error (Run Memory) String).run crossing =
          some (.ok id, looked) ∧
        graph.entry? = some id ∧
        graph.ids.Nodup ∧
        (∀ other, other ∈ graph.ids ↔
          Relation.ReflTransGen ((View.of crossing).Requires lettered ⟨[".js"]⟩) id other) ∧
        (∀ module ∈ graph.modules, (View.of crossing).Gives lettered ⟨[".js"]⟩ module) ∧
        graph.isClosed = true := by
  have within : ((View.of crossing).discoverWithin lettered ⟨[".js"]⟩ 3 "a").bind
      (·.1.toOption.map Graph.ids) = some ["a.js", "b.js", "c.js"] := by
    decide +kernel
  obtain ⟨graph, memory, hgraph, hids⟩ := exists_discover within
  exact ⟨graph, memory, hgraph, hids, discover_eq_ok lettered _ "a" crossing memory graph hgraph⟩

end Bundler

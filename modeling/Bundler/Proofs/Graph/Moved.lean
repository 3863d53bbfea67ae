import Bundler.Proofs.FileStore.Memory
import Bundler.Proofs.Graph.Agreement
import Bundler.Proofs.Graph.Spelling
import Bundler.Proofs.Lowering.Accepted
import Bundler.Proofs.Path.Directory

/-!
# Projects that lie elsewhere

The files of a project may lie in any directory. A search that starts from a relative entry and
follows relative specifiers, none of which leads out of the project, finds below a directory what it
finds where it is: the same modules in the same order, with the same code and the same specifiers.
Only the identifiers stand behind the path of the directory.

* `Graph.under`: a graph whose files lie below a directory;
* `View.Moved`: a store that has the files of another one below a directory;
* `View.visit_under`: a visit to a module below a directory;
* `View.Searches.under`: a whole search there, visit by visit;
* `discover_moved`: the graph of an entry below a directory.
-/

namespace Bundler

/-! ### Graphs and searches below a directory -/

/-- A specifier with a target that lies below a directory. -/
def entryUnder (dir : String) (entry : String × String) : String × String :=
  (entry.1, Path.under dir entry.2)

/-- A table whose targets lie below a directory. -/
def Table.under (table : Table) (dir : String) : Table where
  entries := table.entries.map (entryUnder dir)
  distinct := by simpa [Function.comp_def, entryUnder] using table.distinct

/-- A module that lies below a directory. -/
def Module.under (module : Module) (dir : String) : Module where
  id := Path.under dir module.id
  code := module.code
  dependencies := module.dependencies.under dir

/-- A graph whose modules lie below a directory. -/
def Graph.under (graph : Graph) (dir : String) : Graph where
  modules := graph.modules.map (Module.under · dir)
  distinct := by
    have := graph.distinct.map (Path.under_injective dir)
    simpa [Function.comp_def, Module.under] using this

/-- A search whose files lie below a directory. -/
def Search.under (search : Search) (dir : String) : Search where
  graph := search.graph.under dir
  queue := search.queue.map (Path.under dir)
  seen := search.seen.map (Path.under dir)

theorem Table.keys_under (table : Table) (dir : String) : (table.under dir).keys = table.keys := by
  simp [keys, under, entryUnder, Function.comp_def]

theorem Table.ext {one other : Table} (h : one.entries = other.entries) : one = other := by
  cases one
  cases other
  cases h
  rfl

theorem Graph.ext {one other : Graph} (h : one.modules = other.modules) : one = other := by
  cases one
  cases other
  cases h
  rfl

theorem Table.set_under (table : Table) (dir specifier target : String) :
    (table.set specifier target).under dir =
      (table.under dir).set specifier (Path.under dir target) := by
  apply Table.ext
  by_cases h : specifier ∈ table.entries.map Prod.fst
  · have h' : specifier ∈ (table.under dir).entries.map Prod.fst := by
      rwa [show (table.under dir).entries.map Prod.fst = _ from table.keys_under dir]
    rw [set, dif_pos h, set, dif_pos h']
    simp only [under, List.map_map]
    refine List.map_congr_left fun entry _ => ?_
    by_cases hentry : entry.1 = specifier <;> simp [redirect, entryUnder, hentry]
  · have h' : specifier ∉ (table.under dir).entries.map Prod.fst := by
      rwa [show (table.under dir).entries.map Prod.fst = _ from table.keys_under dir]
    rw [set, dif_neg h, set, dif_neg h']
    simp [under, entryUnder]

theorem Table.ofList_under (pairs : List (String × String)) (dir : String) :
    (ofList pairs).under dir = ofList (pairs.map (entryUnder dir)) := by
  induction pairs using List.reverseRecOn with
  | nil => rfl
  | append_singleton pairs pair ih =>
    rw [ofList_concat, set_under, ih, List.map_append, List.map_singleton, ofList_concat]
    rfl

theorem Graph.ids_under (graph : Graph) (dir : String) :
    (graph.under dir).ids = graph.ids.map (Path.under dir) := by
  simp [ids, under, Module.under, Function.comp_def]

theorem Graph.insert_under (graph : Graph) (module : Module) (dir : String) :
    ((graph.insert module).2).under dir = ((graph.under dir).insert (module.under dir)).2 := by
  have hids : (module.under dir).id ∈ (graph.under dir).modules.map Module.id ↔
      module.id ∈ graph.modules.map Module.id := by
    have := graph.ids_under dir
    unfold ids at this
    rw [this]
    exact List.mem_map_of_injective (Path.under_injective dir)
  apply Graph.ext
  by_cases h : module.id ∈ graph.modules.map Module.id
  · rw [insert, dif_pos h, insert, dif_pos (hids.2 h)]
  · rw [insert, dif_neg h, insert, dif_neg (mt hids.1 h)]
    simp [under]

theorem Search.unseen_map {f : String → String} (hf : Function.Injective f) (seen ids : List String) :
    unseen (seen.map f) (ids.map f) = (unseen seen ids).map f := by
  induction ids generalizing seen with
  | nil => rfl
  | cons id ids ih =>
    rw [List.map_cons]
    by_cases h : id ∈ seen
    · rw [unseen_cons_of_mem h, unseen_cons_of_mem (List.mem_map_of_mem h), ih]
    · have h' : f id ∉ seen.map f := mt (List.mem_map_of_injective hf).1 h
      have := ih (seen ++ [id])
      rw [List.map_append, List.map_singleton] at this
      rw [unseen_cons_of_not_mem h, unseen_cons_of_not_mem h', this, List.map_cons]

/-- A visit below a directory leaves what it leaves elsewhere. -/
theorem Search.visited_under (search : Search) (dir id code : String)
    (pairs : List (String × String)) :
    (search.visited id code pairs).under dir =
      (search.under dir).visited (Path.under dir id) code
        (pairs.map (entryUnder dir)) := by
  have htargets : (pairs.map (entryUnder dir)).map Prod.snd =
      (pairs.map Prod.snd).map (Path.under dir) := by
    simp [entryUnder, Function.comp_def]
  have hunseen := unseen_map (Path.under_injective dir) search.seen (pairs.map Prod.snd)
  rw [visited_eq, visited_eq, htargets, ← Table.ofList_under]
  simp only [under, Graph.insert_under, hunseen, List.map_append]
  rfl

/-! ### Modules stay -/

namespace Search.Sound

variable {v : View} {transform : Transformer} {locator : Locator} {entry : String}
  {search next : Search}

theorem modules_visited (hs : Sound v transform locator entry search) {id : String}
    {queue : List String} (hq : search.queue = id :: queue) (code : String)
    (pairs : List (String × String)) :
    ({ search with queue }.visited id code pairs).graph.modules =
      search.graph.modules ++ [⟨id, code, Table.ofList pairs⟩] := by
  rw [visited_eq]
  exact Graph.modules_insert (hs.fresh hq)

/-- What was visited stays in the graph. -/
theorem modules_grow (hs : Sound v transform locator entry search)
    (h : Relation.ReflTransGen (Step v transform locator) search next) :
    search.graph.modules <+: next.graph.modules := by
  induction h with
  | refl => exact List.prefix_rfl
  | tail hsteps hstep ih =>
    obtain @⟨id, code, queue, pairs, hq, -⟩ := hstep
    rw [(hs.run hsteps).modules_visited hq]
    exact ih.trans (List.prefix_append _ _)

end Search.Sound

/-! ### What is tried and asked for below a directory -/

/-- An index file stands behind the path of its directory. -/
theorem Locator.index_eq (id ending : String) :
    id ++ "/index" ++ ending = Path.under id ("index" ++ ending) := by
  have hslash : "/index" = "/" ++ "index" := rfl
  simp only [Path.under, hslash, String.append_assoc]

/-- The name of an index file. -/
theorem Locator.IsPlain.index_isName {ending : String} (h : IsPlain ending) :
    Path.IsName ("index" ++ ending).toList := by
  have hindex : "index".toList = ['i', 'n', 'd', 'e', 'x'] := rfl
  rw [String.toList_append, hindex]
  exact h.isName.append (List.cons_ne_nil _ _) (by simp [Path.Route.isDivider])

/-- The candidates for an identifier that goes a way down go ways down, and below a directory they
    are the candidates there. -/
theorem Locator.candidates_under {locator : Locator}
    (hplain : ∀ ending ∈ locator.extensions, IsPlain ending) {dir id : String}
    {place names : List (List Char)} (hdir : Path.Way dir true place)
    (hid : Path.Way id false names) :
    (∀ candidate ∈ locator.candidates id, ∃ names, Path.Way candidate false names) ∧
      locator.candidates (Path.under dir id) = (locator.candidates id).map (Path.under dir) := by
  obtain ⟨last, names, rfl⟩ := List.exists_cons_of_ne_nil hid.ne_nil
  refine ⟨List.forall_mem_append.2 ⟨List.forall_mem_cons.2 ⟨⟨_, hid⟩, ?_⟩, ?_⟩, ?_⟩
  · rw [List.forall_mem_map]
    exact fun ending hending => ⟨_, hid.append (hplain ending hending).isName⟩
  · rw [List.forall_mem_map]
    intro ending hending
    rw [index_eq]
    exact ⟨_, hid.concat (hplain ending hending).index_isName⟩
  · have happended : ∀ ending : String, Path.under dir id ++ ending = Path.under dir (id ++ ending) :=
      fun ending => String.append_assoc
    have hindexes : ∀ ending ∈ locator.extensions,
        Path.canonical (Path.under dir id ++ "/index" ++ ending) =
          Path.under dir (Path.canonical (id ++ "/index" ++ ending)) := by
      intro ending hending
      rw [index_eq, index_eq]
      exact hdir.canonical_concat_under hid (hplain ending hending).index_isName
    rw [candidates, candidates, List.map_congr_left hindexes, List.map_append, List.map_cons,
      List.map_map, List.map_map]
    simp only [Function.comp_def, happended]

/-- A specifier of a module stays inside of the project: it is relative, and what it stands for lies
    below the place where the project lies. -/
def Specifier.StaysInside (module specifier : String) : Prop :=
  isRelative specifier = true ∧
    ∀ path, resolve module specifier = .ok path → Path.LeadsDown path

instance (module specifier : String) : Decidable (Specifier.StaysInside module specifier) :=
  match h : Specifier.resolve module specifier with
  | .ok path => decidable_of_iff (Specifier.isRelative specifier = true ∧ Path.LeadsDown path)
    (and_congr_right fun _ => by simp [h])
  | .error _ => decidable_of_iff (Specifier.isRelative specifier = true) (by
    simp [Specifier.StaysInside, h])

namespace View

/-- A store has the files of another one below a directory: the same paths lead to files there, with
    the same texts as far as they can be read. -/
structure Moved (v : View) (dir : String) (v' : View) : Prop where
  /-- What is a file below the directory. -/
  isFile : ∀ path, v'.isFile (Path.under dir path) = v.isFile path
  /-- What reading a file there gives. -/
  read : ∀ path source, v.read path = .ok source → v'.read (Path.under dir path) = .ok source

section

variable {v v' : View} {locator : Locator} {transform : Transformer} {dir id : String}
  {place names : List (List Char)}
  (hmoved : v.Moved dir v') (hdir : Path.Way dir true place)
  (hplain : ∀ ending ∈ locator.extensions, Locator.IsPlain ending)

include hmoved hdir hplain

theorem locate_under (hid : Path.Way id false names) {file : String}
    (h : v.locate locator id = some file) :
    (∃ names, Path.Way file false names) ∧
      v'.locate locator (Path.under dir id) = some (Path.under dir file) := by
  obtain ⟨hways, hcandidates⟩ := Locator.candidates_under hplain hdir hid
  refine ⟨hways file (List.mem_of_find?_eq_some h), ?_⟩
  have hfiles : v'.isFile ∘ Path.under dir = v.isFile := funext hmoved.isFile
  rw [locate, hcandidates, List.find?_map, hfiles]
  exact congrArg _ h

theorem target_under (hid : Path.Way id false names) {specifier target : String}
    (hinside : Specifier.StaysInside id specifier) (h : v.target locator id specifier = .ok target) :
    (∃ names, Path.Way target false names) ∧
      v'.target locator (Path.under dir id) specifier = .ok (Path.under dir target) := by
  obtain ⟨path, hresolve, hlocate⟩ := target_ok h
  obtain ⟨⟨_, hpath⟩, hresolve'⟩ :=
    hdir.resolve_under hid hinside.1 hresolve (hinside.2 path hresolve)
  obtain ⟨hway, hlocate'⟩ := locate_under hmoved hdir hplain hpath hlocate
  refine ⟨hway, ?_⟩
  rw [View.target, hresolve']
  dsimp only
  rw [hlocate']

theorem targets_under (hid : Path.Way id false names) {pairs : List (String × String)}
    (hinside : ∀ pair ∈ pairs, Specifier.StaysInside id pair.1)
    (h : ∀ pair ∈ pairs, v.target locator id pair.1 = .ok pair.2) :
    (∀ pair ∈ pairs, ∃ names, Path.Way pair.2 false names) ∧
      v'.targets locator (Path.under dir id) (pairs.map Prod.fst) =
        .ok (pairs.map (entryUnder dir)) := by
  induction pairs with
  | nil => exact ⟨nofun, rfl⟩
  | cons pair pairs ih =>
    obtain ⟨hpair, hmore⟩ := List.forall_mem_cons.1 hinside
    obtain ⟨hfirst, hrest⟩ := List.forall_mem_cons.1 h
    obtain ⟨hway, htarget⟩ := target_under hmoved hdir hplain hid hpair hfirst
    obtain ⟨hways, hmoreTargets⟩ := ih hmore hrest
    refine ⟨List.forall_mem_cons.2 ⟨hway, hways⟩, ?_⟩
    rw [List.map_cons, targets_cons, htarget, hmoreTargets]
    rfl

/-- A visit below a directory gives what it gives elsewhere, with the targets there. -/
theorem visit_under
    (htransform : ∀ source lowered, transform id source = .ok lowered →
      transform (Path.under dir id) source = .ok lowered)
    (hid : Path.Way id false names) {code : String} {pairs : List (String × String)}
    (hinside : ∀ pair ∈ pairs, Specifier.StaysInside id pair.1)
    (h : v.visit transform locator id = .ok (code, pairs)) :
    (∀ pair ∈ pairs, ∃ names, Path.Way pair.2 false names) ∧
      v'.visit transform locator (Path.under dir id) = .ok (code, pairs.map (entryUnder dir)) := by
  obtain ⟨source, lowered, hread, hlowered, rfl, hkeys, htargets⟩ := lowered_of_visit h
  obtain ⟨hways, htargets⟩ := targets_under hmoved hdir hplain hid hinside htargets
  refine ⟨hways, ?_⟩
  rw [View.visit, hmoved.read id source hread]
  dsimp only
  rw [htransform source lowered hlowered]
  dsimp only
  rw [← hkeys, htargets]
  rfl

omit hmoved hdir hplain in
/-- The module that a search visits is one of the graph to which it comes. -/
theorem Searches.mem_modules {entry code : String} {now : Search} {graph : Graph}
    {queue : List String} {pairs : List (String × String)} {looks : List Look}
    (h : v.Searches transform locator ({ now with queue }.visited id code pairs) (.ok graph) looks)
    (hs : Search.Sound v transform locator entry now) (hq : now.queue = id :: queue)
    (hv : v.visit transform locator id = .ok (code, pairs)) :
    ⟨id, code, Table.ofList pairs⟩ ∈ graph.modules := by
  obtain ⟨last, hsteps, -, rfl⟩ := h.steps
  refine ((hs.step (.visit hq hv)).modules_grow hsteps).subset ?_
  rw [hs.modules_visited hq]
  exact List.mem_append_right _ (.head _)

/-- A search below a directory comes to the graph to which it comes elsewhere, if no specifier of a
    module in it leads out. -/
theorem Searches.under
    (htransform : ∀ id names, Path.Way id false names → ∀ source lowered,
      transform id source = .ok lowered → transform (Path.under dir id) source = .ok lowered)
    {entry : String} {now : Search} {graph : Graph} {looks : List Look}
    (h : v.Searches transform locator now (.ok graph) looks)
    (hs : Search.Sound v transform locator entry now)
    (hways : ∀ id ∈ now.seen, ∃ names, Path.Way id false names)
    (hinside : ∀ module ∈ graph.modules, ∀ specifier ∈ module.dependencies.keys,
      Specifier.StaysInside module.id specifier) :
    ∃ looks', v'.Searches transform locator (now.under dir) (.ok (graph.under dir)) looks' := by
  -- The induction is on the visits. That the specifiers of a module stay inside is known from the
  -- graph to which the search comes, since the module ends up in it.
  generalize hresult : Except.ok graph = result at h
  induction h with
  | @done now hq =>
    cases hresult
    have hq' : (now.under dir).queue = [] := congrArg (List.map (Path.under dir)) hq
    exact ⟨_, .done hq'⟩
  | fail => cases hresult
  | @visit now id code queue pairs _ _ hq hv h ih =>
    subst hresult
    have hseen : id ∈ now.seen := by
      rw [hs.seen_eq, hq]
      exact List.mem_append_right _ (.head _)
    obtain ⟨names, hway⟩ := hways id hseen
    have hstays : ∀ pair ∈ pairs, Specifier.StaysInside id pair.1 := fun pair hpair =>
      hinside _ (h.mem_modules hs hq hv) pair.1 (by
        rw [Table.keys_ofList, List.mem_eraseDups]
        exact List.mem_map_of_mem hpair)
    obtain ⟨htargets, hvisit⟩ :=
      visit_under hmoved hdir hplain (htransform id names hway) hway hstays hv
    have hways' : ∀ other ∈ ({ now with queue }.visited id code pairs).seen,
        ∃ names, Path.Way other false names := by
      intro other hother
      rw [Search.visited_eq] at hother
      rcases List.mem_append.1 hother with hother | hother
      · exact hways other hother
      · obtain ⟨pair, hpair, rfl⟩ := List.mem_map.1 (Search.mem_unseen.1 hother).1
        exact htargets pair hpair
    obtain ⟨looks', hnext⟩ := ih (hs.step (.visit hq hv)) hways' rfl
    rw [Search.visited_under] at hnext
    have hq' : (now.under dir).queue = Path.under dir id :: queue.map (Path.under dir) :=
      congrArg (List.map (Path.under dir)) hq
    exact ⟨_, .visit hq' hvisit hnext⟩

end

/-- The graph of an entry below a directory is the one that is found elsewhere, if no specifier of a
    module in it leads out. -/
theorem Discovers.under {v v' : View} {locator : Locator} {transform : Transformer}
    {dir path : String} {place : List (List Char)} (hmoved : v.Moved dir v')
    (hdir : Path.Way dir true place)
    (hplain : ∀ ending ∈ locator.extensions, Locator.IsPlain ending)
    (htransform : ∀ id names, Path.Way id false names → ∀ source lowered,
      transform id source = .ok lowered → transform (Path.under dir id) source = .ok lowered)
    (hrelative : Path.isAbsolute (Path.canonical path) = false)
    (hdown : Path.LeadsDown (Path.canonical path)) {graph : Graph} {looks : List Look}
    (hinside : ∀ module ∈ graph.modules, ∀ specifier ∈ module.dependencies.keys,
      Specifier.StaysInside module.id specifier)
    (h : v.Discovers transform locator path (.ok graph) looks) :
    ∃ looks', v'.Discovers transform locator (Path.under dir path) (.ok (graph.under dir))
      looks' := by
  have hrooted := Path.isAbsolute_canonical path ▸ hrelative
  obtain ⟨names, -, hway⟩ := Path.exists_way hrooted hdown
  have hcanonical := Path.canonical_under hdir hrooted hdown
  cases h with
  | @found entry _ _ hentry h =>
    obtain ⟨hentryWay, hentry'⟩ := locate_under hmoved hdir hplain hway hentry
    obtain ⟨looks', hfound⟩ := h.under hmoved hdir hplain htransform .start
      (List.forall_mem_singleton.2 hentryWay) hinside
    exact ⟨_, .found (hcanonical ▸ hentry') hfound⟩

end View

/-! ### Lowering below a directory -/

/-- Whether a source can be part of a bundle does not depend on where its file lies. -/
theorem Lowering.examine_congr {id source : String} {subject : Subject} (other : String)
    (h : examine id source = .ok subject) : examine other source = .ok subject :=
  examine_eq_ok_iff.2 (examine_eq_ok_iff.1 h)

/-- What a module is lowered to depends on its source, and on its file for the extension alone. -/
theorem lower_of_extension {id other source : String} {lowered : Lowered}
    (hextension : Path.extension? other = Path.extension? id) (h : lower id source = .ok lowered) :
    lower other source = .ok lowered := by
  unfold lower at h ⊢
  rw [hextension]
  dsimp only at h ⊢
  split at h
  · cases h
  next hmodule =>
    rw [if_neg hmodule]
    cases hsubject : Lowering.examine id source with
    | error error =>
      rw [hsubject] at h
      cases h
    | ok subject =>
      rw [hsubject] at h
      rw [Lowering.examine_congr other hsubject]
      exact h

/-! ### Stores below a directory -/

/-- Files in memory with all their paths below a directory. Nothing was asked there yet. -/
def Memory.under (memory : Memory) (dir : String) : Memory where
  files := memory.files.map fun file => (Path.under dir file.1, file.2)
  refusedReads := memory.refusedReads.map (Path.under dir)
  refusedWrites := memory.refusedWrites.map (Path.under dir)
  refusedDirectories := memory.refusedDirectories.map (Path.under dir)
  journal := []

theorem Memory.text?_under (memory : Memory) (dir path : String) :
    (memory.under dir).text? (Path.under dir path) = memory.text? path := by
  unfold text? under
  induction memory.files with
  | nil => rfl
  | cons file files ih =>
    rw [List.map_cons, lookup_cons_eq, lookup_cons_eq, ih]
    simp only [(Path.under_injective dir).eq_iff]

/-- A directory takes each path to a path of its own. -/
theorem contains_map_under (dir : String) (paths : List String) (path : String) :
    (paths.map (Path.under dir)).contains (Path.under dir path) = paths.contains path := by
  rw [Bool.eq_iff_iff, List.contains_iff_mem, List.contains_iff_mem]
  exact List.mem_map_of_injective (Path.under_injective dir)

theorem Memory.moved_under (memory : Memory) (dir : String) :
    (View.of memory).Moved dir (View.of (memory.under dir)) where
  isFile path := by
    have hpaths : (memory.under dir).files.map Prod.fst =
        (memory.files.map Prod.fst).map (Path.under dir) := by
      simp [under, Function.comp_def]
    show (memory.under dir).hasFile (Path.under dir path) = memory.hasFile path
    rw [hasFile, hpaths, contains_map_under, hasFile]
  read path source h := by
    have h : memory.readResult path = .ok source := h
    have hrefused : (memory.under dir).refusedReads.contains (Path.under dir path) =
        memory.refusedReads.contains path := contains_map_under dir _ path
    show (memory.under dir).readResult (Path.under dir path) = .ok source
    unfold readResult at h ⊢
    rw [text?_under, hrefused]
    split at h
    · cases h
    next hreadable =>
      rw [if_neg hreadable]
      split at h
      · exact h
      · cases h

/-! ### Graphs of modules below a directory -/

/-- A project may lie anywhere. Let the graph of a relative entry be found, in which all specifiers
    are relative and stand for something below the place where the project lies, as the entry does.
    Below any directory but the root the same graph is found for the entry there: its modules stand
    in the same order, with the same code and the same specifiers, and all its files lie below the
    directory. A path that starts with a `\` is taken for one that starts with a `/`, so the entry
    is relative if its canonical spelling is. -/
theorem discover_moved {σ τ : Type} [FileStore (StateM σ)] [Reporter (StateM σ)] [Steady σ]
    [FileStore (StateM τ)] [Reporter (StateM τ)] [Steady τ] (dir entry : String) (s final : σ)
    (s' : τ) (graph : Graph) (hcanonical : Path.canonical dir = dir)
    (habsolute : Path.isAbsolute dir = true) (hroot : dir ≠ "/")
    (hmoved : (View.of s).Moved dir (View.of s'))
    (hrelative : Path.isAbsolute (Path.canonical entry) = false)
    (hdown : Path.LeadsDown (Path.canonical entry))
    (h : (discover lower.told ⟨Locator.defaultExtensions⟩ entry :
      Run σ (Except Error Graph)) s = some (.ok graph, final))
    (hinside : ∀ module ∈ graph.modules, ∀ specifier ∈ module.dependencies.keys,
      Specifier.StaysInside module.id specifier) :
    ∃ final', (discover lower.told ⟨Locator.defaultExtensions⟩
      (Path.under dir entry) : Run τ (Except Error Graph)) s' =
        some (.ok (graph.under dir), final') := by
  obtain ⟨place, hdir⟩ := Path.exists_way_of_isAbsolute hcanonical habsolute hroot
  obtain ⟨looks, hdiscovers⟩ := discovers_of_discover h
  obtain ⟨looks', hdiscovers'⟩ := hdiscovers.under hmoved hdir
    Locator.isPlain_of_mem_defaultExtensions (fun id names hid source lowered hlowered =>
      lower_of_extension (hdir.extension?_under hid) hlowered) hrelative hdown hinside
  exact ⟨_, runs_discover hdiscovers' s' rfl⟩

/-- Three modules in two directories, one of them an index file. -/
def library : Memory where
  files := [("src/main.js", "import { f as run } from '../lib/f';\nimport './main.js';\nrun();\n"),
    ("lib/f.js", "export * from './g';\n"),
    ("lib/g/index.js", "import '../f.js';\nexport const f = () => 1;\n")]
  refusedReads := []
  refusedWrites := []
  refusedDirectories := []
  journal := []

theorem discover_library_moved :
    Path.canonical "/home/me" = "/home/me" ∧ Path.isAbsolute "/home/me" = true ∧
      "/home/me" ≠ "/" ∧
      (View.of library).Moved "/home/me" (View.of (library.under "/home/me")) ∧
      Path.isAbsolute (Path.canonical "./src//main") = false ∧
      Path.LeadsDown (Path.canonical "./src//main") ∧
      ∃ graph memory memory',
        (discover lower.told ⟨Locator.defaultExtensions⟩ "./src//main" :
          Run Memory (Except Error Graph)) library = some (.ok graph, memory) ∧
        (∀ module ∈ graph.modules, ∀ specifier ∈ module.dependencies.keys,
          Specifier.StaysInside module.id specifier) ∧
        graph.ids = ["src/main.js", "lib/f.js", "lib/g/index.js"] ∧
        (discover lower.told ⟨Locator.defaultExtensions⟩
          (Path.under "/home/me" "./src//main") : Run Memory (Except Error Graph))
            (library.under "/home/me") = some (.ok (graph.under "/home/me"), memory') := by
  have hcanonical : Path.canonical "/home/me" = "/home/me" := by decide
  have habsolute : Path.isAbsolute "/home/me" = true := by decide
  have hroot : "/home/me" ≠ "/" := by decide
  have hmoved := library.moved_under "/home/me"
  have hrelative : Path.isAbsolute (Path.canonical "./src//main") = false := by decide
  have hdown : Path.LeadsDown (Path.canonical "./src//main") := by decide
  have within : ((View.of library).discoverWithin lower ⟨Locator.defaultExtensions⟩ 3
      "./src//main").bind (·.1.toOption.map fun graph => (graph.ids, decide (∀ module ∈ graph.modules,
        ∀ specifier ∈ module.dependencies.keys, Specifier.StaysInside module.id specifier))) =
      some (["src/main.js", "lib/f.js", "lib/g/index.js"], true) := by
    decide +kernel
  obtain ⟨graph, memory, hgraph, hshown⟩ := exists_discover within
  obtain ⟨hids, hstays⟩ := Prod.mk.inj hshown
  have hinside := of_decide_eq_true hstays
  obtain ⟨memory', hmovedGraph⟩ := discover_moved "/home/me" "./src//main" library memory
    (library.under "/home/me") graph hcanonical habsolute hroot hmoved hrelative hdown hgraph hinside
  exact ⟨hcanonical, habsolute, hroot, hmoved, hrelative, hdown, graph, memory, memory', hgraph,
    hinside, hids, hmovedGraph⟩

end Bundler

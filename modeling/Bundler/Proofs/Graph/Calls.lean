import Bundler.Proofs.FileStore.Memory
import Bundler.Proofs.Graph.Failure
import Bundler.Proofs.Graph.Termination

/-!
# The calls of a search

A search visits files one after another and none of them twice, and calls the transformer for each
of them once at most. A search that gives a graph has read its modules in order, and after each of
them asked for the files that its specifiers may stand for.

* `View.asked`: what is asked for until something is there;
* `View.visitCalls`: the calls that a visit takes;
* `View.Searches.exists_visits`: a search is one visit after another;
* `discover_calls`: the calls of a search, how many they are, and in which order they come.
-/

namespace Bundler

/-- What tells that the transformer is called for a module. -/
def Look.transforming (id : String) : Look :=
  .tell (.started ("Transforming " ++ id))

/-- A look that tells something, but not that an action starts. -/
def Look.IsAside : Look → Prop
  | .call .. | .tell (.started _) => False
  | .tell _ => True

namespace Look

theorem calls_append (looks more : List Look) : calls (looks ++ more) = calls looks ++ calls more :=
  List.filterMap_append

theorem calls_tell (event : Event) (looks : List Look) :
    calls (.tell event :: looks) = calls looks := rfl

theorem calls_call (access : Access) (path : String) (looks : List Look) :
    calls (.call access path :: looks) = (access, path) :: calls looks := rfl

/-- Nothing is kept of asides that is not kept of what is told. -/
theorem filterMap_asides {α : Type} {keep : Look → Option α} (hk : ∀ event, keep (.tell event) = none)
    {looks : List Look} (h : ∀ look ∈ looks, look.IsAside) : looks.filterMap keep = [] := by
  refine List.filterMap_eq_nil_iff.2 fun look hlook => ?_
  cases look with
  | call => exact absurd (h _ hlook) id
  | tell event => exact hk event

theorem calls_asides {looks : List Look} (h : ∀ look ∈ looks, look.IsAside) : calls looks = [] :=
  filterMap_asides (fun _ => rfl) h

theorem reads_asides {looks : List Look} (h : ∀ look ∈ looks, look.IsAside) : reads looks = [] :=
  filterMap_asides (fun _ => rfl) h

theorem transforming_not_mem_asides {looks : List Look} (h : ∀ look ∈ looks, look.IsAside)
    (id : String) : transforming id ∉ looks :=
  fun hmem => h _ hmem

theorem building_ne_transforming (id : String) :
    .tell (.started "Building dependency graph") ≠ transforming id := by
  intro h
  have hhead := congrArg (·.toList.head?) (Event.started.inj (Look.tell.inj h))
  rw [String.toList_append] at hhead
  simp at hhead

theorem transforming_injective : Function.Injective transforming := by
  intro id other h
  have h := congrArg String.toList (Event.started.inj (Look.tell.inj h))
  rw [String.toList_append, String.toList_append] at h
  exact String.toList_inj.1 (List.append_cancel_left h)

end Look

namespace View

open Look

section

variable (v : View) (transform : Transformer) (locator : Locator)

/-- Of the paths that are tried, those up to and including the first that leads to a file. -/
def asked (paths : List String) : List String :=
  paths.take (paths.findIdx v.isFile + 1)

/-- The calls that it takes to find out what a specifier of a module stands for. -/
def targetCalls (id specifier : String) : List (Access × String) :=
  match Specifier.resolve id specifier with
  | .ok path => (v.asked (locator.candidates path)).map fun candidate => (.isFile, candidate)
  | .error _ => []

/-- The specifiers that the transformer gives for the source of a module. -/
def specifiersOf (id : String) : List String :=
  match v.read id with
  | .ok source =>
    match transform id source with
    | .ok lowered => lowered.specifiers
    | .error _ => []
  | .error _ => []

/-- The calls that it takes to visit a module: it is read, and then its specifiers are looked up in
    order. -/
def visitCalls (id : String) : List (Access × String) :=
  (.read, id) :: (v.specifiersOf transform id).flatMap (v.targetCalls locator id)

theorem probes_eq (paths : List String) :
    v.probes paths = (v.asked paths).map (.call .isFile) := by
  induction paths with
  | nil => rfl
  | cons path paths ih =>
    rw [probes, asked, List.findIdx_cons, ih]
    cases h : v.isFile path with
    | true => rfl
    | false => rfl

theorem calls_probes (paths : List String) :
    calls (v.probes paths) = (v.asked paths).map fun path => (.isFile, path) := by
  rw [probes_eq]
  induction v.asked paths with
  | nil => rfl
  | cons path paths ih => rw [List.map_cons, calls_call, ih, List.map_cons]

theorem calls_targetLooks (id specifier : String) :
    calls (v.targetLooks locator id specifier) = v.targetCalls locator id specifier := by
  unfold targetLooks targetCalls
  cases Specifier.resolve id specifier with
  | error => rfl
  | ok path => exact calls_probes v _

variable {v transform locator}

theorem calls_targetsLooks {id : String} {specifiers : List String}
    (h : ∀ specifier ∈ specifiers, ∃ target, v.target locator id specifier = .ok target) :
    calls (v.targetsLooks locator id specifiers) =
      specifiers.flatMap (v.targetCalls locator id) := by
  induction specifiers with
  | nil => rfl
  | cons specifier specifiers ih =>
    obtain ⟨target, htarget⟩ := h specifier (.head _)
    rw [targetsLooks, htarget, calls_append, calls_targetLooks, calls_tell,
      ih fun other hother => h other (.tail _ hother), List.flatMap_cons]

/-- The calls of a visit that comes to its end. -/
theorem calls_visitLooks {id : String} {found : String × List (String × String)}
    (h : v.visit transform locator id = .ok found) :
    calls (v.visitLooks transform locator id) = v.visitCalls transform locator id := by
  obtain ⟨source, lowered, hread, hlowered, -, hspecifiers, htargets⟩ := lowered_of_visit h
  have htargets' : ∀ specifier ∈ lowered.specifiers,
      ∃ target, v.target locator id specifier = .ok target := by
    intro specifier hspecifier
    rw [← hspecifiers] at hspecifier
    obtain ⟨pair, hpair, rfl⟩ := List.mem_map.1 hspecifier
    exact ⟨pair.2, htargets pair hpair⟩
  simp only [visitLooks, visitCalls, specifiersOf, hread, hlowered]
  rw [calls_tell, calls_call, calls_append, calls_targetsLooks htargets']
  rfl

/-! ### The transformer -/

theorem transforming_not_mem_probes (id : String) (paths : List String) :
    transforming id ∉ v.probes paths := by
  rw [probes_eq, List.mem_map]
  rintro ⟨path, -, h⟩
  cases h

theorem transforming_not_mem_targetsLooks (other id : String) (specifiers : List String) :
    transforming other ∉ v.targetsLooks locator id specifiers := by
  induction specifiers with
  | nil => exact List.not_mem_nil
  | cons specifier specifiers ih =>
    rw [targetsLooks, List.mem_append, targetLooks]
    rintro (h | h)
    · split at h
      · cases h
      · exact transforming_not_mem_probes other _ h
    · split at h
      · cases h
      · rcases List.mem_cons.1 h with h | h
        · cases h
        · exact ih h

/-- A transformation that is told, and told of once, is that of one module. -/
theorem count_transforming_timed (other id : String) {rest : List Look}
    (h : transforming other ∉ rest) :
    List.count (transforming other)
      ([.tell (.started ("Transforming " ++ id)), .tell (.completed ("Transforming " ++ id) ⟨0⟩)] ++
        rest) ≤ [id].count other := by
  have hcompleted : Look.tell (.completed ("Transforming " ++ id) ⟨0⟩) ≠ transforming other := nofun
  rw [List.count_append, List.count_eq_zero.2 h, Nat.add_zero]
  by_cases hid : id = other
  · subst hid
    rw [List.count_singleton_self]
    calc List.count (transforming id) [transforming id, _]
      _ = List.count (transforming id) [.tell (.completed ("Transforming " ++ id) ⟨0⟩)] + 1 :=
        List.count_cons_self
      _ ≤ 1 := by rw [List.count_cons_of_ne hcompleted, List.count_nil]
  · have hstarted : Look.tell (.started ("Transforming " ++ id)) ≠ transforming other :=
      fun heq => hid (transforming_injective heq)
    rw [List.count_cons_of_ne hstarted, List.count_cons_of_ne hcompleted]
    exact Nat.zero_le _

/-- A visit calls the transformer for no module but its own, and once at most. -/
theorem count_transforming_visitLooks (other id : String) :
    (v.visitLooks transform locator id).count (transforming other) ≤ [id].count other := by
  have hvisiting : Look.tell (.visiting id) ≠ transforming other := nofun
  have hread : Look.call .read id ≠ transforming other := nofun
  rw [visitLooks, List.count_cons_of_ne hvisiting, List.count_cons_of_ne hread]
  split
  · exact Nat.zero_le _
  · refine count_transforming_timed other id ?_
    split
    · exact List.not_mem_nil
    · exact transforming_not_mem_targetsLooks other id _

/-- Visits to different modules call the transformer for each of them at most once. -/
theorem count_transforming_visits {visits : List String} (hn : visits.Nodup) (id : String) :
    (visits.flatMap (v.visitLooks transform locator)).count (transforming id) ≤ 1 := by
  refine le_trans ?_ (List.nodup_iff_count_le_one.1 hn id)
  clear hn
  induction visits with
  | nil => exact Nat.le_refl _
  | cons first visits ih =>
    have hfirst : (v.visitLooks transform locator first).count (transforming id) ≤
        [first].count id := count_transforming_visitLooks id first
    rw [List.flatMap_cons, List.count_append, ← List.singleton_append, List.count_append]
    exact Nat.add_le_add hfirst ih

end

end View

/-! ### Searches -/

section

variable {v : View} {transform : Transformer} {locator : Locator} {entry : String}

/-- At every moment of a search, also amid a visit, no module is twice among those that were visited
    and those that are or were put into the queue. -/
theorem Search.Sound.nodup_enqueueAll {now : Search}
    (hs : Search.Sound v transform locator entry now) (targets : List String) :
    ((now.enqueueAll targets).graph.ids ++ (now.enqueueAll targets).queue).Nodup := by
  rw [Search.enqueueAll_eq, ← List.append_assoc, ← hs.seen_eq]
  exact Search.nodup_append_unseen hs.nodup targets

variable (v transform locator) in
/-- What a search does from a state on, with some result and some looks: it visits modules, one
    after another. -/
structure Search.Visits (now : Search) (visits : List String) (result : Except Error Graph)
    (looks : List Look) : Prop where
  /-- The looks are those of the visits. -/
  looks_eq : looks = visits.flatMap (v.visitLooks transform locator)
  /-- No module is visited twice, or again. -/
  nodup : (now.graph.ids ++ visits).Nodup
  /-- Only files are visited. -/
  isFile : ∀ id ∈ visits, v.isFile id = true
  /-- If there is a graph in the end, the visits all come to their ends, and the graph has the
      modules that were visited, in this order. -/
  graph_eq : ∀ graph, result = .ok graph → graph.ids = now.graph.ids ++ visits ∧
    ∀ id ∈ visits, ∃ found, v.visit transform locator id = .ok found

namespace Search.Visits

variable {now : Search} {result : Except Error Graph} {looks : List Look} {id : String}
  {queue visits : List String}

/-- A search that does not go on. -/
theorem nil (h : ∀ graph, result = .ok graph → graph = now.graph) :
    Search.Visits v transform locator now [] result [] where
  looks_eq := rfl
  nodup := by
    rw [List.append_nil]
    exact now.graph.distinct
  isFile := nofun
  graph_eq graph hgraph := ⟨by rw [h graph hgraph, List.append_nil], nofun⟩

/-- A search whose visit fails. -/
theorem fail (hs : Search.Sound v transform locator entry now) (hq : now.queue = id :: queue)
    (hf : v.isFile id = true) (error : Error) :
    Search.Visits v transform locator now [id] (.error error)
      (v.visitLooks transform locator id) where
  looks_eq := (List.flatMap_singleton _ _).symm
  nodup := by
    have hnodup := hs.nodup
    rw [hs.seen_eq, hq, ← List.singleton_append, ← List.append_assoc] at hnodup
    exact hnodup.of_append_left
  isFile := List.forall_mem_singleton.2 hf
  graph_eq := nofun

/-- A search that goes on after a visit. -/
theorem cons (hs : Search.Sound v transform locator entry now) (hq : now.queue = id :: queue)
    (hf : v.isFile id = true) {code : String} {pairs : List (String × String)}
    (hv : v.visit transform locator id = .ok (code, pairs))
    (h : Search.Visits v transform locator ({ now with queue }.visited id code pairs) visits result
      looks) :
    Search.Visits v transform locator now (id :: visits) result
      (v.visitLooks transform locator id ++ looks) where
  looks_eq := by rw [List.flatMap_cons, ← h.looks_eq]
  nodup := by
    have hnodup := h.nodup
    rwa [hs.ids_visited hq, List.append_assoc] at hnodup
  isFile := List.forall_mem_cons.2 ⟨hf, h.isFile⟩
  graph_eq graph hgraph := by
    obtain ⟨hids, hvisits⟩ := h.graph_eq graph hgraph
    rw [hs.ids_visited hq, List.append_assoc] at hids
    exact ⟨hids, List.forall_mem_cons.2 ⟨⟨_, hv⟩, hvisits⟩⟩

end Search.Visits

/-- A search that starts from a file is one visit after another. -/
theorem View.Searches.exists_visits {now : Search} {result : Except Error Graph} {looks : List Look}
    (h : v.Searches transform locator now result looks) (hf : v.isFile entry = true)
    (hs : Search.Sound v transform locator entry now) :
    ∃ visits, Search.Visits v transform locator now visits result looks := by
  -- What waits can be reached, so it is a file.
  have hfile {now : Search} {id : String} {queue : List String}
      (hs : Search.Sound v transform locator entry now) (hq : now.queue = id :: queue) :
      v.isFile id = true := by
    refine hs.isFile hf id ?_
    rw [hs.seen_eq, hq]
    exact List.mem_append_right _ (.head _)
  induction h with
  | done => exact ⟨[], .nil fun _ h => (Except.ok.inj h).symm⟩
  | fail hq => exact ⟨_, .fail hs hq (hfile hs hq) _⟩
  | visit hq hv _ ih =>
    obtain ⟨visits, hvisits⟩ := ih (hs.step (.visit hq hv))
    exact ⟨_, .cons hs hq (hfile hs hq) hv hvisits⟩

theorem Look.reads_visits (visits : List String) :
    Look.reads (visits.flatMap (v.visitLooks transform locator)) = visits := by
  induction visits with
  | nil => rfl
  | cons id visits ih =>
    rw [List.flatMap_cons, Look.reads_append, View.reads_visitLooks, ih, List.singleton_append]

theorem Look.calls_visits {visits : List String}
    (h : ∀ id ∈ visits, ∃ found, v.visit transform locator id = .ok found) :
    Look.calls (visits.flatMap (v.visitLooks transform locator)) =
      visits.flatMap (v.visitCalls transform locator) := by
  induction visits with
  | nil => rfl
  | cons id visits ih =>
    obtain ⟨found, hfound⟩ := h id (.head _)
    rw [List.flatMap_cons, Look.calls_append, View.calls_visitLooks hfound,
      ih fun other hother => h other (.tail _ hother), List.flatMap_cons]

theorem closing_asides (result : Except Error Graph) : ∀ look ∈ closing result, look.IsAside := by
  cases result with
  | error => exact nofun
  | ok => exact List.forall_mem_singleton.2 trivial

/-- Looking for the graph of an entry asks for the file of the entry and then visits modules.
    Around that it tells of itself. -/
theorem View.Discovers.exists_visits {path : String} {result : Except Error Graph}
    {looks : List Look} (h : v.Discovers transform locator path result looks) :
    ∃ visits asides,
      looks = .tell (.started "Building dependency graph") ::
          (v.probes (locator.candidates (Path.canonical path)) ++
            (visits.flatMap (v.visitLooks transform locator) ++ asides)) ∧
      (∀ look ∈ asides, look.IsAside) ∧
      visits.Nodup ∧ (∀ id ∈ visits, v.isFile id = true) ∧
      ∀ graph, result = .ok graph → graph.ids = visits ∧
        ∀ id ∈ visits, ∃ found, v.visit transform locator id = .ok found := by
  have hend : ∀ look ∈ [Look.tell (.completed "Building dependency graph" ⟨0⟩)], look.IsAside :=
    List.forall_mem_singleton.2 trivial
  cases h with
  | noEntry =>
    refine ⟨[], _, ?_, hend, List.nodup_nil, nofun, nofun⟩
    rw [discoverLooks, List.append_nil]
    rfl
  | @found entry result looks hentry h =>
    obtain ⟨visits, hvisits⟩ := h.exists_visits (isFile_of_locate hentry) .start
    refine ⟨visits, closing result ++ [.tell (.completed "Building dependency graph" ⟨0⟩)], ?_,
      List.forall_mem_append.2 ⟨closing_asides _, hend⟩, hvisits.nodup, hvisits.isFile,
      hvisits.graph_eq⟩
    rw [discoverLooks, hvisits.looks_eq, List.cons_append, List.append_assoc, List.append_assoc]

end

/-- A search for the graph of an entry in a store in which finitely many paths lead to files. It
    ends, and it has no endless steps. No module enters the queue twice, at no moment of a visit. No
    file is read twice, so there are no more reads than files, and the transformer is called for no
    module twice. If there is a graph, the modules were read in its order, and after each of them the
    files were asked for that its specifiers may stand for, each time up to the first that is
    there. -/
theorem discover_calls (transform : Transformer) (locator : Locator) (path : String) (v : View)
    (files : Finset String) (hfiles : v.HasFiles files) :
    ∃ result looks,
      (discover transform.told locator path : Run Watched (Except Error Graph)) (.start v) =
        some (result, { view := v, looks }) ∧
      (∀ entry, v.locate locator (Path.canonical path) = some entry →
        Acc (fun next now => Search.Step v transform locator now next) (Search.start entry) ∧
        ∀ now, Relation.ReflTransGen (Search.Step v transform locator) (Search.start entry) now →
          ∀ targets,
            ((now.enqueueAll targets).graph.ids ++ (now.enqueueAll targets).queue).Nodup) ∧
      (Look.reads looks).Nodup ∧ (∀ file ∈ Look.reads looks, v.isFile file = true) ∧
      (Look.reads looks).length ≤ files.card ∧
      (∀ id, looks.count (Look.transforming id) ≤ 1) ∧
      ∀ graph, result = .ok graph →
        Look.reads looks = graph.ids ∧
        Look.calls looks =
          (v.asked (locator.candidates (Path.canonical path))).map (fun file => (.isFile, file)) ++
            graph.ids.flatMap (v.visitCalls transform locator) := by
  obtain ⟨result, looks, h⟩ := hfiles.exists_discovers transform locator path
  obtain ⟨visits, asides, hlooks, hasides, hnodup, hvisited, hgraph⟩ := h.exists_visits
  -- Only visits read files. The rest asks where files are, or tells what is done.
  have hreads : Look.reads looks = visits := by
    rw [hlooks, Look.reads_tell, Look.reads_append, View.reads_probes, Look.reads_append,
      Look.reads_visits, Look.reads_asides hasides, List.append_nil, List.nil_append]
  refine ⟨result, looks, discover_watched_iff.2 ⟨h, rfl⟩, ?_⟩
  rw [hreads]
  refine ⟨?_, hnodup, hvisited, ?_, ?_, ?_⟩
  · intro entry hentry
    have hf := View.isFile_of_locate hentry
    exact ⟨Search.Sound.start.acc hf hfiles,
      fun now hsteps => (Search.Sound.start.run hsteps).nodup_enqueueAll⟩
  · rw [← List.toFinset_card_of_nodup hnodup]
    exact Finset.card_le_card fun id hid => hfiles id (hvisited id (List.mem_toFinset.1 hid))
  · intro id
    rw [hlooks, List.count_cons_of_ne (Look.building_ne_transforming id), List.count_append,
      List.count_eq_zero.2 (View.transforming_not_mem_probes id _), Nat.zero_add, List.count_append,
      List.count_eq_zero.2 (Look.transforming_not_mem_asides hasides id), Nat.add_zero]
    exact View.count_transforming_visits hnodup id
  · intro graph hok
    obtain ⟨rfl, hvisits⟩ := hgraph graph hok
    rw [hlooks, Look.calls_tell, Look.calls_append, View.calls_probes, Look.calls_append,
      Look.calls_visits hvisits, Look.calls_asides hasides, List.append_nil]
    exact ⟨rfl, rfl⟩

theorem discover_crossing_calls :
    (View.of crossing).HasFiles {"a.js", "b.js", "c.js"} ∧
      ∃ graph looks,
        (discover lettered.told ⟨[".js"]⟩ "a" : Run Watched (Except Error Graph))
            (.start (View.of crossing)) =
          some (.ok graph, { view := View.of crossing, looks }) ∧
        graph.ids = ["a.js", "b.js", "c.js"] ∧
        (∀ id, looks.count (Look.transforming id) ≤ 1) ∧
        (Look.reads looks).length ≤ 3 ∧ Look.reads looks = graph.ids ∧
        Look.calls looks =
          ((View.of crossing).asked (Locator.candidates ⟨[".js"]⟩ (Path.canonical "a"))).map
              (fun file => (.isFile, file)) ++
            graph.ids.flatMap ((View.of crossing).visitCalls lettered ⟨[".js"]⟩) := by
  have within : ((View.of (Watched.start (View.of crossing))).discoverWithin lettered ⟨[".js"]⟩ 3
      "a").bind (·.1.toOption.map Graph.ids) = some ["a.js", "b.js", "c.js"] := by
    decide +kernel
  have hfiles : (View.of crossing).HasFiles {"a.js", "b.js", "c.js"} := crossing.hasFiles
  obtain ⟨graph, ended, hgraph, hids⟩ := exists_discover within
  obtain ⟨result, looks, hran, -, -, -, hlength, hcount, hcalls⟩ :=
    discover_calls lettered ⟨[".js"]⟩ "a" _ _ hfiles
  obtain ⟨rfl, -⟩ := Prod.mk.inj (Option.some.inj (hran.symm.trans hgraph))
  obtain ⟨hreads, htrace⟩ := hcalls graph rfl
  exact ⟨hfiles, graph, looks, hran, hids, hcount, hlength, hreads, htrace⟩

end Bundler

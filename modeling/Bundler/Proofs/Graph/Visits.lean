import Bundler.Graph.Discovery
import Bundler.Proofs.FileStore.Steady
import Bundler.Proofs.Graph.Table

/-!
# What a visit does in a steady store

In a store that stays as it is, what a visit to a module finds depends on what can be seen of the
store alone, and so does all that it asks and tells on the way. A visit either fails or makes one
step of the search (`Search.Step`). Between two visits what was seen was visited or waits, and
nothing is seen twice (`Search.Orderly`).

* `View.visit`, `runs_visit`: what a visit gives;
* `Search.visited_eq`: what it leaves in the queue;
* `Search.Orderly.visited`: one visit keeps a search in order.
-/

namespace Bundler

namespace View

variable (v : View) (transform : Transformer) (locator : Locator)

/-- The file that answers to an identifier. -/
def locate (id : String) : Option String :=
  (locator.candidates id).find? v.isFile

/-- What is asked to find the first file among paths. -/
def probes : List String → List Look
  | [] => []
  | path :: more => .call .isFile path :: if v.isFile path then [] else probes more

/-- The identifier of an entry. -/
def entry (path : String) : Except Error String :=
  match v.locate locator (Path.canonical path) with
  | some id => .ok id
  | none => .error (.entryNotFound path)

/-- The identifier that a specifier of a module stands for. -/
def target (id specifier : String) : Except Error String :=
  match Specifier.resolve id specifier with
  | .error reason => .error (.unresolved specifier id reason)
  | .ok path =>
    match v.locate locator path with
    | some target => .ok target
    | none => .error (.unresolved specifier id (.noSuchFile path))

/-- What is asked to find out what a specifier stands for. -/
def targetLooks (id specifier : String) : List Look :=
  match Specifier.resolve id specifier with
  | .error _ => []
  | .ok path => v.probes (locator.candidates path)

/-- The specifiers of a module with what they stand for. -/
def targets (id : String) (specifiers : List String) : Except Error (List (String × String)) :=
  specifiers.mapM fun specifier => return (specifier, ← v.target locator id specifier)

/-- What is asked and told to find out what specifiers stand for, up to the first that stands
    for nothing. -/
def targetsLooks (id : String) : List String → List Look
  | [] => []
  | specifier :: more =>
    v.targetLooks locator id specifier ++
      match v.target locator id specifier with
      | .error _ => []
      | .ok target => .tell (.resolved specifier id target) :: targetsLooks id more

/-- What visiting a module gives: its code, and its specifiers with what they stand for. -/
def visit (id : String) : Except Error (String × List (String × String)) :=
  match v.read id with
  | .error fault => .error (.transform id (.unreadable (Error.file fault).message) none)
  | .ok source =>
    match transform id source with
    | .error error => .error (Search.moduleError id error)
    | .ok lowered => return (lowered.code, ← v.targets locator id lowered.specifiers)

/-- What is asked and told during a visit. -/
def visitLooks (id : String) : List Look :=
  .tell (.visiting id) :: .call .read id ::
    match v.read id with
    | .error _ => []
    | .ok source =>
      [.tell (.started ("Transforming " ++ id)), .tell (.completed ("Transforming " ++ id) ⟨0⟩)] ++
        match transform id source with
        | .error _ => []
        | .ok lowered => v.targetsLooks locator id lowered.specifiers

end View

/-! ### Steps -/

namespace Search

/-- A search after files were put into its queue. -/
def enqueueAll (search : Search) (ids : List String) : Search :=
  ids.foldl enqueue search

/-- A search after a visit to a module. -/
def visited (search : Search) (id code : String) (pairs : List (String × String)) : Search :=
  let next := search.enqueueAll (pairs.map Prod.snd)
  { next with graph := (next.graph.insert ⟨id, code, Table.ofList pairs⟩).2 }

/-- One step of a search: a visit to the module that waits first. -/
inductive Step (v : View) (transform : Transformer) (locator : Locator) : Search → Search → Prop
  | visit {search : Search} {id code : String} {queue : List String}
      {pairs : List (String × String)} (waits : search.queue = id :: queue)
      (found : v.visit transform locator id = .ok (code, pairs)) :
      Step v transform locator search ({ search with queue }.visited id code pairs)

/-- The identifiers that were not seen before, each at its first place. -/
def unseen (seen ids : List String) : List String :=
  (ids.filter fun id => !seen.contains id).eraseDups

theorem unseen_cons_of_mem {seen ids : List String} {id : String} (h : id ∈ seen) :
    unseen seen (id :: ids) = unseen seen ids := by
  simp [unseen, h]

theorem unseen_cons_of_not_mem {seen ids : List String} {id : String} (h : id ∉ seen) :
    unseen seen (id :: ids) = id :: unseen (seen ++ [id]) ids := by
  rw [unseen, List.filter_cons_of_pos (by simpa using h), List.eraseDups_cons, List.filter_filter,
    unseen]
  congr 3
  funext other
  by_cases hi : other = id <;> simp [hi]

/-- What is put into the queue is what was not seen before. -/
theorem enqueueAll_eq (search : Search) (ids : List String) :
    search.enqueueAll ids =
      { search with
        queue := search.queue ++ unseen search.seen ids
        seen := search.seen ++ unseen search.seen ids } := by
  induction ids generalizing search with
  | nil => simp [enqueueAll, unseen]
  | cons id ids ih =>
    show (search.enqueue id).enqueueAll ids = _
    rw [ih]
    by_cases h : id ∈ search.seen
    · rw [unseen_cons_of_mem h]
      simp [enqueue, h]
    · rw [unseen_cons_of_not_mem h]
      simp [enqueue, h]

/-- A visit adds a module to the graph, and to the queue what was not seen before. -/
theorem visited_eq (search : Search) (id code : String) (pairs : List (String × String)) :
    search.visited id code pairs =
      { graph := (search.graph.insert ⟨id, code, Table.ofList pairs⟩).2
        queue := search.queue ++ unseen search.seen (pairs.map Prod.snd)
        seen := search.seen ++ unseen search.seen (pairs.map Prod.snd) } := by
  rw [visited, enqueueAll_eq]

end Search

/-! ### Order -/

namespace Search

theorem mem_unseen {seen ids : List String} {id : String} :
    id ∈ unseen seen ids ↔ id ∈ ids ∧ id ∉ seen := by
  simp [unseen]

theorem nodup_append_unseen {seen : List String} (h : seen.Nodup) (ids : List String) :
    (seen ++ unseen seen ids).Nodup := by
  refine List.nodup_append.2 ⟨h, nodup_eraseDups _, ?_⟩
  rintro id hs _ hu rfl
  exact (mem_unseen.1 hu).2 hs

/-- What was seen was visited or waits, and nothing is seen twice. -/
structure Orderly (search : Search) : Prop where
  /-- What was seen was visited or waits. -/
  seen_eq : search.seen = search.graph.ids ++ search.queue
  /-- Nothing is seen twice. -/
  nodup : search.seen.Nodup

namespace Orderly

variable {search : Search} {id : String} {queue : List String}

theorem start (entry : String) : (Search.start entry).Orderly where
  seen_eq := rfl
  nodup := List.nodup_singleton _

/-- What waits was not visited: it would have been seen twice. -/
theorem fresh (h : search.Orderly) (hq : search.queue = id :: queue) : id ∉ search.graph.ids := by
  intro hi
  have hn := h.nodup
  rw [h.seen_eq, hq] at hn
  exact (List.nodup_append.1 hn).2.2 id hi id List.mem_cons_self rfl

/-- A visit adds its module to those that were visited. -/
theorem ids_visited (h : search.Orderly) (hq : search.queue = id :: queue) (code : String)
    (pairs : List (String × String)) :
    ({ search with queue }.visited id code pairs).graph.ids = search.graph.ids ++ [id] := by
  rw [visited_eq]
  exact Graph.ids_insert (h.fresh hq)

/-- A visit keeps a search in order. -/
theorem visited (h : search.Orderly) (hq : search.queue = id :: queue) (code : String)
    (pairs : List (String × String)) : ({ search with queue }.visited id code pairs).Orderly where
  seen_eq := by
    rw [h.ids_visited hq, visited_eq]
    dsimp only
    rw [h.seen_eq, hq]
    simp
  nodup := by
    rw [visited_eq]
    exact nodup_append_unseen h.nodup _

end Orderly

end Search

/-! ### What runs in a steady store -/

section

variable {σ : Type} [FileStore (StateM σ)] [Reporter (StateM σ)] [Steady σ]
  (v : View) (transform : Transformer) (locator : Locator)

theorem runs_locate (id : String) :
    Runs v (locator.locate id : ExceptT Error (Run σ) (Option String)).run
      (.ok (v.locate locator id)) (v.probes (locator.candidates id)) := by
  rw [Locator.locate, View.locate]
  induction locator.candidates id with
  | nil => exact Runs.pure _
  | cons path paths ih =>
    rw [firstFile, View.probes]
    refine (Runs.isFile path).lift.lookThen ?_
    cases h : v.isFile path with
    | true =>
      rw [List.find?_cons_of_pos h]
      exact Runs.pure _
    | false =>
      rw [List.find?_cons_of_neg (by simp [h])]
      exact ih

theorem runs_entry (path : String) :
    Runs v (locator.entry path : ExceptT Error (Run σ) String).run (v.entry locator path)
      (v.probes (locator.candidates (Path.canonical path))) := by
  rw [← List.append_nil (v.probes _), View.entry]
  refine (runs_locate v locator _).andThen ?_
  cases v.locate locator (Path.canonical path) with
  | none => exact Runs.pure _
  | some id => exact Runs.pure _

theorem runs_dependency (id specifier : String) :
    Runs v (Search.dependency locator id specifier : ExceptT Error (Run σ) String).run
      (v.target locator id specifier) (v.targetLooks locator id specifier) := by
  unfold Search.dependency View.target View.targetLooks
  cases Specifier.resolve id specifier with
  | error reason => exact Runs.pure _
  | ok path =>
    simp only
    rw [← List.append_nil (v.probes _)]
    refine (runs_locate v locator path).andThen ?_
    cases v.locate locator path with
    | none => exact Runs.pure _
    | some target => exact Runs.pure _

/-- A table and a search after specifiers were resolved to targets. -/
def resolved (found : Table × Search) (pairs : List (String × String)) : Table × Search :=
  (pairs.foldl (fun table pair => table.set pair.1 pair.2) found.1,
    found.2.enqueueAll (pairs.map Prod.snd))

theorem runs_dependencies (id : String) (specifiers : List String) (found : Table × Search) :
    Runs v (Search.dependencies locator id specifiers found :
        ExceptT Error (Run σ) (Table × Search)).run
      ((v.targets locator id specifiers).map (resolved found))
      (v.targetsLooks locator id specifiers) := by
  induction specifiers generalizing found with
  | nil => exact Runs.pure _
  | cons specifier specifiers ih =>
    obtain ⟨table, search⟩ := found
    have first := runs_dependency (σ := σ) v locator id specifier
    rw [View.targets, List.mapM_cons, View.targetsLooks, Search.dependencies]
    cases ht : v.target locator id specifier with
    | error error =>
      rw [ht] at first
      rw [List.append_nil]
      exact first.orFail _
    | ok target =>
      rw [ht] at first
      refine first.andThen ((Runs.report _).lift.lookThen ?_)
      have rest := ih (table.set specifier target, search.enqueue target)
      have : (v.targets locator id specifiers).map
          (resolved (table.set specifier target, search.enqueue target)) =
        (do
          let first ← (do return (specifier, ← (.ok target : Except Error String)))
          let others ← v.targets locator id specifiers
          return first :: others).map (resolved (table, search)) := by
        cases v.targets locator id specifiers <;> rfl
      rw [this] at rest
      exact rest

/-- A transformer that is called tells it, and gives what it gives. -/
theorem runs_told (id source : String) :
    Runs v (transform.told id source : Run σ (Except Error Lowered)) (transform id source)
      [.tell (.started ("Transforming " ++ id)),
        .tell (.completed ("Transforming " ++ id) ⟨0⟩)] :=
  Runs.timed (fun _ => pure (transform id source)) (Runs.pure _) _

theorem runs_visit (id : String) (search : Search) :
    Runs v (Search.visit transform.told locator id search : ExceptT Error (Run σ) Search).run
      ((v.visit transform locator id).map fun found => search.visited id found.1 found.2)
      (v.visitLooks transform locator id) := by
  unfold Search.visit View.visit View.visitLooks
  refine (Runs.report _).lift.lookThen ?_
  refine (Runs.read id).lift.lookThen ?_
  cases v.read id with
  | error fault => exact Runs.pure _
  | ok source =>
    refine (runs_told v transform id source).lift.andThen ?_
    dsimp only
    cases transform id source with
    | error error => exact Runs.pure _
    | ok lowered =>
      have found := runs_dependencies (σ := σ) v locator id lowered.specifiers (.empty, search)
      dsimp only
      cases ht : v.targets locator id lowered.specifiers with
      | error error =>
        rw [ht] at found
        exact found.orFail _
      | ok pairs =>
        rw [ht] at found
        rw [← List.append_nil (v.targetsLooks _ _ _)]
        exact found.andThen (Runs.pure _)

end

end Bundler

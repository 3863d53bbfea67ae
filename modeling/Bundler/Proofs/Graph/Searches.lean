import Bundler.Proofs.FileStore.Watched
import Bundler.Proofs.Graph.Visits
import Mathlib.Logic.Relation

/-!
# What a search does in a steady store

A search is one visit after another, until nothing waits any more or a visit fails; where there is
always another module to visit it never ends. In a store that stays as it is, what a search comes
to depends on what can be seen of the store alone, and so does all that it asks and tells.

* `View.Searches`: what a search that ends gives, asks and tells;
* `runs_search`, `searches_of_run`: a search ends just if it does in this sense;
* `View.Discovers`, `discover_eq_some_iff`: the same from the path of an entry on;
* `discover_watched_iff`: what a watched store has written down then;
* `View.discoverWithin`: the same by calculation, for a number of visits.
-/

namespace Bundler

section

variable (v : View) (transform : Transformer) (locator : Locator)

/-- What a search gives, and what it asks and tells until it ends. -/
inductive View.Searches : Search → Except Error Graph → List Look → Prop
  /-- Nothing waits: the graph is complete. -/
  | done {now : Search} (hq : now.queue = []) : Searches now (.ok now.graph) []
  /-- The next visit fails. -/
  | fail {now : Search} {id : String} {queue : List String} {error : Error}
    (hq : now.queue = id :: queue) (hv : v.visit transform locator id = .error error) :
    Searches now (.error error) (v.visitLooks transform locator id)
  /-- The search goes on after a visit. -/
  | visit {now : Search} {id code : String} {queue : List String}
    {pairs : List (String × String)} {result : Except Error Graph} {looks : List Look}
    (hq : now.queue = id :: queue) (hv : v.visit transform locator id = .ok (code, pairs))
    (h : Searches ({ now with queue }.visited id code pairs) result looks) :
    Searches now result (v.visitLooks transform locator id ++ looks)

/-- A search that gives a graph goes step by step until nothing waits any more. -/
theorem View.Searches.steps {v : View} {transform : Transformer} {locator : Locator} {now : Search}
    {graph : Graph} {looks : List Look}
    (h : v.Searches transform locator now (.ok graph) looks) :
    ∃ last, Relation.ReflTransGen (Search.Step v transform locator) now last ∧
      last.queue = [] ∧ last.graph = graph := by
  generalize hresult : Except.ok graph = result at h
  induction h with
  | @done now hq => exact ⟨now, .refl, hq, (Except.ok.inj hresult).symm⟩
  | fail => cases hresult
  | visit hq hv _ ih =>
    obtain ⟨last, hsteps, hend⟩ := ih hresult
    exact ⟨last, .head (.visit hq hv) hsteps, hend⟩

/-! ### What runs -/

section

variable {σ : Type} [FileStore (StateM σ)] [Reporter (StateM σ)] [Steady σ]
  {v : View} {transform : Transformer} {locator : Locator} {now : Search}

/-- A turn of a search in which nothing waits. -/
theorem runs_turn_done (hq : now.queue = []) :
    Runs v (Search.turn transform.told locator now : ExceptT Error (Run σ) (Search ⊕ Graph)).run
      (.ok (.inr now.graph)) [] := by
  unfold Search.turn
  rw [hq]
  exact Runs.pure _

omit [Steady σ] in
/-- A turn of a search is a visit to what waits first, since it was not visited. -/
theorem turn_eq (ho : now.Orderly) {id : String} {queue : List String}
    (hq : now.queue = id :: queue) :
    (Search.turn transform.told locator now : ExceptT Error (Run σ) (Search ⊕ Graph)) = do
      return .inl (← Search.visit transform.told locator id { now with queue }) := by
  have hfresh : ¬now.graph.contains id = true := by
    rw [Graph.contains, List.contains_iff_mem]
    exact ho.fresh hq
  unfold Search.turn
  rw [hq]
  dsimp only
  rw [if_neg hfresh]

theorem runs_turn_fail (ho : now.Orderly) {id : String} {queue : List String} {error : Error}
    (hq : now.queue = id :: queue) (hv : v.visit transform locator id = .error error) :
    Runs v (Search.turn transform.told locator now : ExceptT Error (Run σ) (Search ⊕ Graph)).run
      (.error error) (v.visitLooks transform locator id) := by
  have hvisit := runs_visit (σ := σ) v transform locator id { now with queue }
  rw [hv] at hvisit
  rw [turn_eq ho hq]
  exact hvisit.orFail _

theorem runs_turn_visit (ho : now.Orderly) {id code : String} {queue : List String}
    {pairs : List (String × String)} (hq : now.queue = id :: queue)
    (hv : v.visit transform locator id = .ok (code, pairs)) :
    Runs v (Search.turn transform.told locator now : ExceptT Error (Run σ) (Search ⊕ Graph)).run
      (.ok (.inl ({ now with queue }.visited id code pairs)))
      (v.visitLooks transform locator id) := by
  have hvisit := runs_visit (σ := σ) v transform locator id { now with queue }
  rw [hv] at hvisit
  rw [turn_eq ho hq, ← List.append_nil (v.visitLooks transform locator id)]
  exact hvisit.andThen (Runs.pure _)

/-- A search that ends, with what it asks and tells. -/
theorem runs_search {result : Except Error Graph} {looks : List Look}
    (h : v.Searches transform locator now result looks) (ho : now.Orderly) :
    Runs v (Search.run transform.told locator now : ExceptT Error (Run σ) Graph).run result
      looks := by
  unfold Search.run
  induction h with
  | done hq => exact (runs_turn_done hq).last
  | fail hq hv => exact (runs_turn_fail ho hq hv).lastFail
  | visit hq hv _ ih => exact (runs_turn_visit ho hq hv).again (ih (ho.visited hq _ _))

/-- All that a turn of a search can come to. -/
theorem turn_cases (ho : now.Orderly) {s : σ} {turned : Except Error (Search ⊕ Graph) × σ}
    (h : (Search.turn transform.told locator now :
      ExceptT Error (Run σ) (Search ⊕ Graph)).run s = some turned) :
    (now.queue = [] ∧ turned = (.ok (.inr now.graph), s)) ∨
    (∃ id queue error, now.queue = id :: queue ∧
      (View.of s).visit transform locator id = .error error ∧
      turned = (.error error, ((View.of s).visitLooks transform locator id).foldl Steady.after s)) ∨
    ∃ id queue code pairs, now.queue = id :: queue ∧
      (View.of s).visit transform locator id = .ok (code, pairs) ∧
      turned = (.ok (.inl ({ now with queue }.visited id code pairs)),
        ((View.of s).visitLooks transform locator id).foldl Steady.after s) := by
  cases hq : now.queue with
  | nil => exact .inl ⟨rfl, Option.some.inj (h.symm.trans (runs_turn_done hq s rfl))⟩
  | cons id queue =>
    cases hv : (View.of s).visit transform locator id with
    | error error =>
      have hturned := Option.some.inj (h.symm.trans (runs_turn_fail ho hq hv s rfl))
      exact .inr (.inl ⟨id, queue, error, rfl, hv, hturned⟩)
    | ok found =>
      have hturned := Option.some.inj (h.symm.trans (runs_turn_visit ho hq hv s rfl))
      exact .inr (.inr ⟨id, queue, found.1, found.2, rfl, hv, hturned⟩)

/-- A search that ends is one visit after another. -/
theorem searches_of_run {s s' : σ} {result : Except Error Graph} (ho : now.Orderly)
    (h : (Search.run transform.told locator now : ExceptT Error (Run σ) Graph).run s =
      some (result, s')) :
    ∃ looks, (View.of s).Searches transform locator now result looks ∧
      s' = looks.foldl Steady.after s := by
  -- The induction is on the turns of the run. That the search is in order goes from one turn to
  -- the next, so that each of them is a visit.
  refine iterate_induct (motive := fun now s ended => now.Orderly →
    ∃ looks, (View.of s).Searches transform locator now ended.1 looks ∧
      ended.2 = looks.foldl Steady.after s) (fun hturn ih ho => ?_) (fun hturn ho => ?_)
    (fun hturn ho => ?_) h ho
  · obtain ⟨-, h⟩ | ⟨_, _, _, -, -, h⟩ | ⟨id, queue, code, pairs, hq, hv, h⟩ := turn_cases ho hturn
    · cases h
    · cases h
    · cases h
      obtain ⟨looks, hsearches, hended⟩ := ih (ho.visited hq _ _)
      rw [View.of_foldl] at hsearches
      exact ⟨_, .visit hq hv hsearches, hended.trans List.foldl_append.symm⟩
  · obtain ⟨hq, h⟩ | ⟨_, _, _, -, -, h⟩ | ⟨_, _, _, _, -, -, h⟩ := turn_cases ho hturn
    · cases h
      exact ⟨[], .done hq, rfl⟩
    · cases h
    · cases h
  · obtain ⟨-, h⟩ | ⟨id, queue, error, hq, hv, h⟩ | ⟨_, _, _, _, -, -, h⟩ := turn_cases ho hturn
    · cases h
    · cases h
      exact ⟨_, .fail hq hv, rfl⟩
    · cases h

end

/-! ### From an entry on -/

/-- What is told when a graph is complete. -/
def closing : Except Error Graph → List Look
  | .ok graph => [.tell (.closed graph.size)]
  | .error _ => []

/-- What is asked and told to find the graph of an entry, around the search. -/
def View.discoverLooks (path : String) (looks : List Look) : List Look :=
  .tell (.started "Building dependency graph") ::
    (v.probes (locator.candidates (Path.canonical path)) ++ looks) ++
    [.tell (.completed "Building dependency graph" ⟨0⟩)]

/-- What looking for the graph of an entry gives, and what it asks and tells until it ends. -/
inductive View.Discovers (path : String) : Except Error Graph → List Look → Prop
  /-- The path of the entry leads to no file. -/
  | noEntry (hentry : v.locate locator (Path.canonical path) = none) :
    Discovers path (.error (.entryNotFound path)) (v.discoverLooks locator path [])
  /-- The search from the file of the entry ends. -/
  | found {entry : String} {result : Except Error Graph} {looks : List Look}
    (hentry : v.locate locator (Path.canonical path) = some entry)
    (h : v.Searches transform locator (Search.start entry) result looks) :
    Discovers path result (v.discoverLooks locator path (looks ++ closing result))

/-- The graph of an entry is what a search from the file of the entry ends with. -/
theorem View.Discovers.steps {v : View} {transform : Transformer} {locator : Locator}
    {path : String} {graph : Graph} {looks : List Look}
    (h : v.Discovers transform locator path (.ok graph) looks) :
    ∃ entry last, v.locate locator (Path.canonical path) = some entry ∧
      Relation.ReflTransGen (Search.Step v transform locator) (Search.start entry) last ∧
      last.queue = [] ∧ last.graph = graph := by
  cases h with
  | found hentry h =>
    obtain ⟨last, hsteps, hend⟩ := h.steps
    exact ⟨_, last, hentry, hsteps, hend⟩

section

variable {σ : Type} [FileStore (StateM σ)] [Reporter (StateM σ)] [Steady σ]
  {v : View} {transform : Transformer} {locator : Locator} {path : String}

theorem runs_discover {result : Except Error Graph} {looks : List Look}
    (h : v.Discovers transform locator path result looks) :
    Runs v (discover transform.told locator path : Run σ (Except Error Graph)) result looks := by
  have hentry := runs_entry (σ := σ) v locator path
  unfold View.entry at hentry
  unfold discover
  cases h with
  | noEntry hnone =>
    rw [hnone] at hentry
    refine Runs.timed _ ?_ _
    rw [List.append_nil]
    exact hentry.orFail _
  | @found entry _ looks hsome h =>
    rw [hsome] at hentry
    refine Runs.timed _ (hentry.andThen ?_) _
    have hsearch := runs_search (σ := σ) h (.start entry)
    cases result with
    | error error =>
      rw [closing, List.append_nil]
      exact hsearch.orFail _
    | ok graph => exact hsearch.andThen ((Runs.report _).lift.lookThen (Runs.pure _))

/-- What looking for the graph of an entry comes to, if it ends, is what the view of the store has
    it come to. -/
theorem discovers_of_discover {s s' : σ} {result : Except Error Graph}
    (h : (discover transform.told locator path : Run σ (Except Error Graph)) s =
      some (result, s')) :
    ∃ looks, (View.of s).Discovers transform locator path result looks := by
  unfold discover at h
  rw [timed_eq, Option.map_eq_some_iff] at h
  obtain ⟨⟨found, reached⟩, hfound, heq⟩ := h
  cases heq
  generalize hstart : Steady.after s (.tell (.started "Building dependency graph")) = start at hfound
  have hview : View.of start = View.of s := hstart ▸ Steady.view_after s _
  have hentry := runs_entry (View.of s) locator path start hview
  unfold View.entry at hentry
  cases hlocate : (View.of s).locate locator (Path.canonical path) with
  | none =>
    rw [hlocate] at hentry
    rw [run_bind, hentry] at hfound
    cases hfound
    exact ⟨_, .noEntry hlocate⟩
  | some entry =>
    rw [hlocate] at hentry
    rw [run_bind, hentry] at hfound
    dsimp only at hfound
    rw [run_bind] at hfound
    cases hsearch : (Search.run transform.told locator (Search.start entry) :
        ExceptT Error (Run σ) Graph).run
          ((View.of s).probes (locator.candidates (Path.canonical path)) |>.foldl
            Steady.after start) with
    | none =>
      rw [hsearch] at hfound
      cases hfound
    | some ended =>
      obtain ⟨result, searched⟩ := ended
      obtain ⟨looks, hsearches, -⟩ := searches_of_run (.start entry) hsearch
      rw [View.of_foldl, hview] at hsearches
      rw [hsearch] at hfound
      cases result with
      | error error =>
        cases hfound
        exact ⟨_, .found hlocate hsearches⟩
      | ok graph =>
        cases hfound
        exact ⟨_, .found hlocate hsearches⟩

/-- In a steady store the graph of an entry is found, or is not, as the view of the store has it;
    and what is left in the store is the trace of what was asked and told. -/
theorem discover_eq_some_iff {s s' : σ} {result : Except Error Graph} :
    (discover transform.told locator path : Run σ (Except Error Graph)) s = some (result, s') ↔
      ∃ looks, (View.of s).Discovers transform locator path result looks ∧
        s' = looks.foldl Steady.after s := by
  constructor
  case mp =>
    intro h
    obtain ⟨looks, hdiscovers⟩ := discovers_of_discover h
    have hruns := runs_discover hdiscovers s rfl
    exact ⟨looks, hdiscovers, congrArg Prod.snd (Option.some.inj (h.symm.trans hruns))⟩
  case mpr =>
    rintro ⟨looks, h, rfl⟩
    exact runs_discover h s rfl

/-- The graph that is found for an entry is what a search from the file of the entry ends with. -/
theorem steps_of_discover {s s' : σ} {graph : Graph}
    (h : (discover transform.told locator path : Run σ (Except Error Graph)) s =
      some (.ok graph, s')) :
    ∃ entry last, (View.of s).locate locator (Path.canonical path) = some entry ∧
      Relation.ReflTransGen (Search.Step (View.of s) transform locator) (Search.start entry) last ∧
      last.queue = [] ∧ last.graph = graph := by
  obtain ⟨looks, hdiscovers⟩ := discovers_of_discover h
  exact hdiscovers.steps

end

end

/-- What a watched store has written down when the search in it has ended. -/
theorem discover_watched_iff {transform : Transformer} {locator : Locator} {path : String} {v : View}
    {result : Except Error Graph} {watched : Watched} :
    (discover transform.told locator path : Run Watched (Except Error Graph)) (.start v) =
        some (result, watched) ↔
      v.Discovers transform locator path result watched.looks ∧ watched.view = v := by
  rw [discover_eq_some_iff]
  constructor
  case mp =>
    rintro ⟨looks, h, rfl⟩
    rw [Watched.foldl_after]
    exact ⟨h, rfl⟩
  case mpr =>
    rintro ⟨h, rfl⟩
    refine ⟨watched.looks, h, ?_⟩
    rw [Watched.foldl_after]
    rfl

/-! ### Calculation -/

namespace View

variable (v : View) (transform : Transformer) (locator : Locator)

/-- What a search gives, asks and tells that ends within a number of visits. -/
def searchWithin : Nat → Search → Option (Except Error Graph × List Look)
  | visits, now =>
    match now.queue, visits with
    | [], _ => some (.ok now.graph, [])
    | _ :: _, 0 => none
    | id :: queue, visits + 1 =>
      match v.visit transform locator id with
      | .error error => some (.error error, v.visitLooks transform locator id)
      | .ok (code, pairs) =>
        (searchWithin visits ({ now with queue }.visited id code pairs)).map fun ended =>
          (ended.1, v.visitLooks transform locator id ++ ended.2)

/-- What looking for the graph of an entry gives, asks and tells that ends within a number of
    visits. -/
def discoverWithin (visits : Nat) (path : String) : Option (Except Error Graph × List Look) :=
  match v.locate locator (Path.canonical path) with
  | none => some (.error (.entryNotFound path), v.discoverLooks locator path [])
  | some entry =>
    (v.searchWithin transform locator visits (Search.start entry)).map fun ended =>
      (ended.1, v.discoverLooks locator path (ended.2 ++ closing ended.1))

variable {v transform locator}

theorem searches_of_searchWithin {visits : Nat} {now : Search} {result : Except Error Graph}
    {looks : List Look}
    (h : v.searchWithin transform locator visits now = some (result, looks)) :
    v.Searches transform locator now result looks := by
  induction visits generalizing now result looks with
  | zero =>
    unfold searchWithin at h
    split at h
    next hq =>
      cases h
      exact .done hq
    next => cases h
    next => contradiction
  | succ visits ih =>
    unfold searchWithin at h
    split at h
    next hq =>
      cases h
      exact .done hq
    next => contradiction
    next id queue _ hq hvisits =>
      cases hvisits
      cases hv : v.visit transform locator id with
      | error error =>
        rw [hv] at h
        cases h
        exact .fail hq hv
      | ok found =>
        rw [hv] at h
        obtain ⟨ended, hended, heq⟩ := Option.map_eq_some_iff.1 h
        cases heq
        exact .visit hq hv (ih hended)

theorem discovers_of_discoverWithin {visits : Nat} {path : String} {result : Except Error Graph}
    {looks : List Look}
    (h : v.discoverWithin transform locator visits path = some (result, looks)) :
    v.Discovers transform locator path result looks := by
  unfold discoverWithin at h
  split at h
  next hnone =>
    cases h
    exact .noEntry hnone
  next entry hentry =>
    obtain ⟨ended, hended, heq⟩ := Option.map_eq_some_iff.1 h
    cases heq
    exact .found hentry (searches_of_searchWithin hended)

/-- A search that fails within a number of visits fails. -/
theorem exists_discovers_of_fails {visits : Nat} {path : String} {error : Error}
    (h : (v.discoverWithin transform locator visits path).map (·.1.map Graph.ids) =
      some (.error error)) :
    ∃ looks, v.Discovers transform locator path (.error error) looks := by
  obtain ⟨⟨failed | graph, looks⟩, hwithin, heq⟩ := Option.map_eq_some_iff.1 h
  · cases heq
    exact ⟨looks, discovers_of_discoverWithin hwithin⟩
  · cases heq

end View

/-- A graph that is found within a number of visits is found. -/
theorem exists_discover {σ β : Type} [FileStore (StateM σ)] [Reporter (StateM σ)] [Steady σ]
    {transform : Transformer} {locator : Locator} {path : String} {s : σ} {visits : Nat}
    {f : Graph → β} {b : β}
    (h : ((View.of s).discoverWithin transform locator visits path).bind
      (·.1.toOption.map f) = some b) :
    ∃ graph s', (discover transform.told locator path : Run σ (Except Error Graph)) s =
      some (.ok graph, s') ∧ f graph = b := by
  obtain ⟨⟨error | graph, looks⟩, hwithin, hb⟩ := Option.bind_eq_some_iff.1 h
  · cases hb
  · exact ⟨graph, _, runs_discover (View.discovers_of_discoverWithin hwithin) s rfl,
      Option.some.inj hb⟩

end Bundler

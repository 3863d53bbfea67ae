import Bundler.Graph.Discovery
import Bundler.Proofs.Graph.Table
import Bundler.Proofs.Run

/-!
# The graphs of changing stores

A search in a store that changes under it still ends, if it ends, with a closed graph that starts
with its entry, or with an error about the entry, a module or a specifier. A target comes into the
queue as it comes into a table, and what waits is visited or ends the search, so the closure of the
graph does not hang on what the store answers.

* `Search.Tidy`: what holds of a search at every moment, also in the midst of a visit;
* `Search.ensures_visit`, `Search.ensures_run`: a visit keeps it, and so does a search;
* `ensures_discover`: what discovery ends with.
-/

namespace Bundler

namespace Search

/-- What is put into the queue was seen from then on. -/
theorem mem_seen_enqueue (search : Search) {target id : String} :
    id ∈ (search.enqueue target).seen ↔ id ∈ search.seen ∨ id = target := by
  unfold enqueue
  split
  next hmem =>
    refine (or_iff_left_of_imp ?_).symm
    rintro rfl
    exact List.contains_iff_mem.1 hmem
  next => exact List.mem_append.trans (or_congr_right List.mem_singleton)

/-- What holds of a search from an entry all along: what was seen are the modules in the graph,
    those in the midst of a visit, and those that wait; and the modules of the graph depend on
    nothing else. -/
structure Tidy (entry : String) (busy : List String) (search : Search) : Prop where
  /-- What was seen is in the graph, or is being visited, or waits. -/
  seen_eq : search.seen = search.graph.ids ++ busy ++ search.queue
  /-- Nothing is seen twice. -/
  nodup : search.seen.Nodup
  /-- The entry is seen first. -/
  head : search.seen.head? = some entry
  /-- What a module of the graph depends on was seen. -/
  targets : ∀ module ∈ search.graph.modules, ∀ pair ∈ module.dependencies.entries,
    pair.2 ∈ search.seen

namespace Tidy

variable {entry id : String} {busy queue : List String} {search : Search}

theorem start (entry : String) : Tidy entry [] (Search.start entry) where
  seen_eq := rfl
  nodup := List.nodup_singleton _
  head := rfl
  targets _ hm := absurd hm List.not_mem_nil

/-- The next module is taken out of the queue. -/
theorem take (h : Tidy entry [] search) (hq : search.queue = id :: queue) :
    Tidy entry [id] { search with queue } where
  seen_eq := by
    rw [h.seen_eq, hq, List.append_nil, List.append_assoc]
    rfl
  nodup := h.nodup
  head := h.head
  targets := h.targets

/-- A module in the midst of a visit was seen, and not a second time in the graph. -/
theorem fresh (h : Tidy entry [id] search) : id ∉ search.graph.ids := by
  intro hid
  have hn := h.nodup
  rw [h.seen_eq, List.append_assoc] at hn
  exact (List.nodup_append.1 hn).2.2 id hid id (.head _) rfl

/-- A file is put into the queue, unless it was seen. -/
theorem enqueue (h : Tidy entry busy search) (target : String) :
    Tidy entry busy (search.enqueue target) := by
  unfold Search.enqueue
  split
  next => exact h
  next hseen =>
    have hseen : target ∉ search.seen := by simpa using hseen
    constructor
    case seen_eq => rw [h.seen_eq, List.append_assoc _ search.queue]
    case nodup =>
      have hconcat := h.nodup.concat hseen
      rwa [List.concat_eq_append] at hconcat
    case head => rw [List.head?_append, h.head, Option.some_or]
    case targets =>
      exact fun module hm pair hp => List.mem_append_left _ (h.targets module hm pair hp)

/-- A module that was visited comes into the graph, with targets that were seen. -/
theorem insert (h : Tidy entry [id] search) (code : String) {table : Table}
    (htable : ∀ pair ∈ table.entries, pair.2 ∈ search.seen) :
    Tidy entry [] { search with graph := (search.graph.insert ⟨id, code, table⟩).2 } where
  seen_eq := by rw [Graph.ids_insert h.fresh, List.append_nil, h.seen_eq]
  nodup := h.nodup
  head := h.head
  targets := by
    intro module hm pair hp
    have hmodules : (search.graph.insert ⟨id, code, table⟩).2.modules =
        search.graph.modules ++ [⟨id, code, table⟩] := Graph.modules_insert h.fresh
    rcases List.mem_append.1 (hmodules ▸ hm) with hm | hm
    · exact h.targets module hm pair hp
    · obtain rfl := List.mem_singleton.1 hm
      exact htable pair hp

/-- When nothing waits any more, the graph is closed and starts with the entry. -/
theorem closed (h : Tidy entry [] search) (hq : search.queue = []) :
    search.graph.entry? = some entry ∧ search.graph.isClosed = true := by
  have hseen : search.seen = search.graph.ids := by
    rw [h.seen_eq, hq, List.append_nil, List.append_nil]
  refine ⟨?_, Graph.isClosed_iff.2 (hseen ▸ h.targets)⟩
  rw [Graph.entry?, ← hseen, h.head]

end Tidy

end Search

/-- An error that has its cause elsewhere than in the graph of a bundle. -/
def Error.Elsewhere (error : Error) : Prop :=
  ∀ fault, error ≠ .generate fault

section

variable {σ : Type} [FileStore (Run σ)]

theorem ensures_locate (locator : Locator) (id : String) :
    Ensures (locator.locate id : ExceptT Error (Run σ) (Option String)).run
      (Fares (fun _ => True) Error.Elsewhere) := by
  unfold Locator.locate
  induction locator.candidates id with
  | nil => exact Ensures.ok ⟨⟩
  | cons path paths ih =>
    refine (Ensures.trivial _).lift.andThen fun isFile _ => ?_
    cases isFile with
    | true => exact Ensures.ok ⟨⟩
    | false => exact ih

theorem ensures_entry (locator : Locator) (path : String) :
    Ensures (locator.entry path : ExceptT Error (Run σ) String).run
      (Fares (fun _ => True) Error.Elsewhere) := by
  refine (ensures_locate locator _).andThen fun found _ => ?_
  cases found with
  | none => exact Ensures.fail nofun
  | some id => exact Ensures.ok ⟨⟩

theorem Search.ensures_dependency (locator : Locator) (id specifier : String) :
    Ensures (Search.dependency locator id specifier : ExceptT Error (Run σ) String).run
      (Fares (fun _ => True) Error.Elsewhere) := by
  unfold Search.dependency
  cases Specifier.resolve id specifier with
  | error reason => exact Ensures.fail nofun
  | ok path =>
    refine (ensures_locate locator path).andThen fun found _ => ?_
    cases found with
    | none => exact Ensures.fail nofun
    | some target => exact Ensures.ok ⟨⟩

variable [Reporter (Run σ)]

namespace Search

variable (transform : Transform (Run σ)) (locator : Locator)

/-- What the specifiers of a module stand for was seen, and the graph stays as it is meanwhile. -/
theorem ensures_dependencies {entry id : String} (specifiers : List String) {table : Table}
    {search : Search} (htidy : Tidy entry [id] search)
    (htable : ∀ pair ∈ table.entries, pair.2 ∈ search.seen) :
    Ensures (dependencies locator id specifiers (table, search) :
        ExceptT Error (Run σ) (Table × Search)).run
      (Fares (fun found => Tidy entry [id] found.2 ∧
        ∀ pair ∈ found.1.entries, pair.2 ∈ found.2.seen) Error.Elsewhere) := by
  induction specifiers generalizing table search with
  | nil => exact Ensures.ok ⟨htidy, htable⟩
  | cons specifier specifiers ih =>
    refine (ensures_dependency locator id specifier).andThen fun target _ => ?_
    refine (Ensures.trivial _).lift.andThen fun _ _ => ?_
    refine ih (htidy.enqueue target) fun pair hp => search.mem_seen_enqueue.2 ?_
    rcases Table.mem_of_mem_set hp with rfl | hp
    · exact .inr rfl
    · exact .inl (htable pair hp)

/-- A visit brings its module into the graph. -/
theorem ensures_visit {entry id : String} {search : Search} (htidy : Tidy entry [id] search) :
    Ensures (visit transform locator id search : ExceptT Error (Run σ) Search).run
      (Fares (Tidy entry []) Error.Elsewhere) := by
  unfold visit
  refine (Ensures.trivial _).lift.andThen fun _ _ => ?_
  refine (Ensures.trivial _).lift.andThen fun text _ => ?_
  cases text with
  | error fault => exact Ensures.fail nofun
  | ok source =>
    refine (Ensures.trivial _).lift.andThen fun result _ => ?_
    cases result with
    | error error =>
      -- The error of a transformer is about the module, whatever it says.
      have hmodule : (moduleError id error).Elsewhere := by
        intro fault
        cases error <;> exact nofun
      exact Ensures.fail hmodule
    | ok lowered =>
      have hempty : ∀ pair ∈ Table.empty.entries, pair.2 ∈ search.seen :=
        fun _ hp => absurd hp List.not_mem_nil
      refine (ensures_dependencies locator lowered.specifiers htidy hempty).andThen ?_
      rintro ⟨table, found⟩ ⟨hfound, htable⟩
      exact Ensures.ok (hfound.insert lowered.code htable)

/-- A turn that is not the last one keeps a search tidy, and the last one gives a closed graph. -/
theorem ensures_turn {entry : String} {search : Search} (htidy : Tidy entry [] search) :
    Ensures (turn transform locator search : ExceptT Error (Run σ) (Search ⊕ Graph)).run
      (Fares (Sum.elim (Tidy entry [])
        fun graph => graph.entry? = some entry ∧ graph.isClosed = true) Error.Elsewhere) := by
  unfold turn
  cases hq : search.queue with
  | nil => exact Ensures.ok (htidy.closed hq)
  | cons id queue =>
    have hfresh : ¬search.graph.contains id = true := by
      rw [Graph.contains, List.contains_iff_mem]
      exact (htidy.take hq).fresh
    dsimp only
    rw [if_neg hfresh]
    exact (ensures_visit transform locator (htidy.take hq)).andThen fun _ hnext => Ensures.ok hnext

/-- A search ends with a closed graph, or with an error that is not about writing a bundle. -/
theorem ensures_run {entry : String} {search : Search} (htidy : Tidy entry [] search) :
    Ensures (run transform locator search : ExceptT Error (Run σ) Graph).run
      (Fares (fun graph => graph.entry? = some entry ∧ graph.isClosed = true) Error.Elsewhere) :=
  Ensures.iterate (fun _ => ensures_turn transform locator) htidy

end Search

/-- Discovery ends with a closed graph that has modules, or with an error that is not about writing a
    bundle, in whatever store. -/
theorem ensures_discover (transform : Transform (Run σ)) (locator : Locator) (path : String) :
    Ensures (discover transform locator path)
      (Fares (fun graph => ∃ entry, graph.entry? = some entry ∧ graph.isClosed = true)
        Error.Elsewhere) := by
  refine Ensures.timed (fun _ => ?_) _
  refine (ensures_entry locator path).andThen fun id _ => ?_
  refine (Search.ensures_run transform locator (.start id)).andThen fun graph hgraph => ?_
  exact (Ensures.trivial _).lift.andThen fun _ _ => Ensures.ok ⟨id, hgraph⟩

end

end Bundler

import Bundler.Proofs.Graph.Reachability
import Mathlib.Data.List.Infix

/-!
# Breadth-first order

The modules within a number of steps from an entry are listed in breadth-first order: the
entry, then what the entry leads to, then what those lead to, each module where it comes first.
A search sees modules in just that order, and visits them in it.

* `View.within`: the modules within a number of steps;
* `View.exists_mem_within_iff`: they are what can be reached through modules that can be visited;
* `Search.InOrder.step`, `Search.InOrder.run`: what a search sees comes in breadth-first order.
-/

namespace Bundler

/-- What a list starts with is there once, at its place, in a longer list as well. -/
theorem eraseDups_prefix {α : Type} [DecidableEq α] {one other : List α} (h : one <+: other) :
    one.eraseDups <+: other.eraseDups := by
  obtain ⟨more, rfl⟩ := h
  rw [List.eraseDups_append]
  exact List.prefix_append _ _

namespace View

section

variable (v : View) (transform : Transformer) (locator : Locator)

/-- The modules that a module leads to, in the order of its specifiers. One that cannot be
    visited leads to none. -/
def next (id : String) : List String :=
  match v.visit transform locator id with
  | .ok (_, pairs) => pairs.map Prod.snd
  | .error _ => []

/-- A module that can be visited leads to another one. -/
def Leads (id target : String) : Prop :=
  target ∈ next v transform locator id

/-- The modules within a number of steps from an entry, in breadth-first order. -/
def within (entry : String) : Nat → List String
  | 0 => [entry]
  | steps + 1 => (entry :: (within entry steps).flatMap (next v transform locator)).eraseDups

end

variable {v : View} {transform : Transformer} {locator : Locator}

theorem next_of_visit {id code : String} {pairs : List (String × String)}
    (h : v.visit transform locator id = .ok (code, pairs)) :
    v.next transform locator id = pairs.map Prod.snd := by
  rw [next, h]

/-- What a module leads to, it requires. -/
theorem Leads.requires {id target : String} (h : v.Leads transform locator id target) :
    v.Requires transform locator id target := by
  unfold Leads at h
  cases hv : v.visit transform locator id with
  | error error =>
    rw [next, hv] at h
    cases h
  | ok found =>
    rw [next_of_visit hv] at h
    obtain ⟨pair, hp, rfl⟩ := List.mem_map.1 h
    exact (visit_ok hv).2 pair hp

/-- The modules that are listed, within any number of steps, are those that can be reached from
    the entry through modules that can be visited. -/
theorem exists_mem_within_iff {entry id : String} :
    (∃ steps, id ∈ v.within transform locator entry steps) ↔
      Relation.ReflTransGen (v.Leads transform locator) entry id := by
  constructor
  · rintro ⟨steps, h⟩
    -- A module that is listed one step later is led to by one that was listed before.
    induction steps generalizing id with
    | zero =>
      obtain rfl := List.mem_singleton.1 h
      exact .refl
    | succ steps ih =>
      rw [within, List.mem_eraseDups] at h
      rcases List.mem_cons.1 h with rfl | h
      · exact .refl
      · obtain ⟨one, hone, hid⟩ := List.mem_flatMap.1 h
        exact (ih hone).tail hid
  · intro h
    induction h with
    | refl => exact ⟨0, List.mem_singleton_self _⟩
    | tail _ hleads ih =>
      obtain ⟨steps, hone⟩ := ih
      refine ⟨steps + 1, ?_⟩
      rw [within, List.mem_eraseDups]
      exact .tail _ (List.mem_flatMap.2 ⟨_, hone, hleads⟩)

end View

namespace Search

/-- A search sees modules in breadth-first order, and has visited the first of them. -/
structure InOrder (v : View) (transform : Transformer) (locator : Locator) (entry : String)
    (search : Search) : Prop where
  /-- What was visited can be visited. -/
  visited : ∀ id ∈ search.graph.ids, ∃ found, v.visit transform locator id = .ok found
  /-- What was seen is the entry and what the visited modules lead to. -/
  seen_eq : search.seen =
    (entry :: search.graph.ids.flatMap (v.next transform locator)).eraseDups
  /-- It is the first part of the modules within some number of steps. -/
  listed : ∃ steps, search.seen <+: v.within transform locator entry steps

variable {v : View} {transform : Transformer} {locator : Locator} {entry : String}
  {search next : Search}

/-- What was not seen of some modules is what they add to a list of those that were. -/
theorem eraseDups_append_unseen (known ids : List String) :
    (known ++ ids).eraseDups = known.eraseDups ++ unseen known.eraseDups ids := by
  rw [List.eraseDups_append, unseen, List.removeAll]
  congr 2
  exact List.filter_congr fun id _ => by simp

namespace InOrder

theorem start : InOrder v transform locator entry (Search.start entry) where
  visited _ hi := absurd hi List.not_mem_nil
  seen_eq := rfl
  listed := ⟨0, List.prefix_rfl⟩

/-- One visit keeps the order. -/
theorem step (ho : InOrder v transform locator entry search)
    (hs : Sound v transform locator entry search)
    (h : Step v transform locator search next) : InOrder v transform locator entry next := by
  obtain @⟨id, code, queue, pairs, hq, hv⟩ := h
  have hids : (search.graph.insert ⟨id, code, Table.ofList pairs⟩).2.ids =
      search.graph.ids ++ [id] := Graph.ids_insert (hs.fresh hq)
  have hseen : search.seen ++ unseen search.seen (pairs.map Prod.snd) =
      (entry :: (search.graph.ids ++ [id]).flatMap (v.next transform locator)).eraseDups := by
    rw [List.flatMap_append, List.flatMap_singleton, View.next_of_visit hv, ← List.cons_append,
      eraseDups_append_unseen, ← ho.seen_eq]
  rw [visited_eq]
  constructor
  case visited =>
    rw [hids]
    intro other hi
    rcases List.mem_append.1 hi with hi | hi
    · exact ho.visited other hi
    · obtain rfl := List.mem_singleton.1 hi
      exact ⟨_, hv⟩
  case seen_eq =>
    rw [hids]
    exact hseen
  case listed =>
    -- The visited modules are listed, so what they lead to is listed one step later.
    obtain ⟨steps, hlisted⟩ := ho.listed
    have hvisited : search.graph.ids ++ [id] <+: search.seen := by
      rw [hs.seen_eq, hq]
      exact ⟨queue, by simp⟩
    refine ⟨steps + 1, ?_⟩
    dsimp only
    rw [hseen, View.within]
    exact eraseDups_prefix (List.cons_prefix_cons.2
      ⟨rfl, (hvisited.trans hlisted).flatMap _⟩)

/-- As many visits as it takes keep the order. -/
theorem run (ho : InOrder v transform locator entry search)
    (hs : Sound v transform locator entry search)
    (h : Relation.ReflTransGen (Step v transform locator) search next) :
    InOrder v transform locator entry next := by
  induction h with
  | refl => exact ho
  | tail hsteps hstep ih => exact ih.step (hs.run hsteps) hstep

end InOrder

end Search

end Bundler

import Bundler.Proofs.Graph.Order

/-!
# Searches without end

Among infinitely many files a search may never end. What waits is still visited in its turn, so such
a search comes to every module that can be reached through modules that can be visited, and none of
them fails.

* `Search.Endless`: a search that does not end;
* `Search.Endless.drain`: it visits what waits;
* `Search.Endless.cover`: and so all modules within any number of steps.
-/

namespace Bundler

variable {v : View} {transform : Transformer} {locator : Locator} {entry : String} {now : Search}

/-- A search that does not end. -/
def Search.Endless (v : View) (transform : Transformer) (locator : Locator) (now : Search) : Prop :=
  ∀ result looks, ¬v.Searches transform locator now result looks

namespace Search.Endless

/-- A search that does not end visits what waits first, and does not end after that. -/
theorem next {id : String} {queue : List String} (h : now.Endless v transform locator)
    (hq : now.queue = id :: queue) :
    ∃ code pairs, v.visit transform locator id = .ok (code, pairs) ∧
      ({ now with queue }.visited id code pairs).Endless v transform locator := by
  cases hv : v.visit transform locator id with
  | error error => exact absurd (.fail hq hv) (h (.error error) _)
  | ok found =>
    exact ⟨found.1, found.2, rfl, fun result looks hsearches => h result _ (.visit hq hv hsearches)⟩

/-- A search that does not end visits, one after another, all that waits. -/
theorem drain (h : now.Endless v transform locator) (ho : now.Orderly) {ids rest : List String}
    (hq : now.queue = ids ++ rest) :
    ∃ later, Relation.ReflTransGen (Step v transform locator) now later ∧
      later.Endless v transform locator ∧ later.graph.ids = now.graph.ids ++ ids := by
  induction ids generalizing now rest with
  | nil => exact ⟨now, .refl, h, (List.append_nil _).symm⟩
  | cons id ids ih =>
    obtain ⟨code, pairs, hv, hnext⟩ := h.next hq
    -- What is found in a visit waits behind the others.
    have hqueue : ({ now with queue := ids ++ rest }.visited id code pairs).queue =
        ids ++ (rest ++ unseen now.seen (pairs.map Prod.snd)) := by
      rw [visited_eq, List.append_assoc]
    obtain ⟨later, hsteps, hlater, hids⟩ := ih hnext (ho.visited hq code pairs) hqueue
    refine ⟨later, .head (.visit hq hv) hsteps, hlater, ?_⟩
    rw [hids, ho.ids_visited hq, List.append_assoc, List.singleton_append]

/-- A search from an entry that does not end visits all modules within any number of steps. -/
theorem cover (h : (Search.start entry).Endless v transform locator) (steps : Nat) :
    ∃ later, Relation.ReflTransGen (Step v transform locator) (Search.start entry) later ∧
      later.Endless v transform locator ∧
      ∀ id ∈ v.within transform locator entry steps, id ∈ later.graph.ids := by
  induction steps with
  | zero =>
    have hqueue : (Search.start entry).queue = [entry] ++ [] := rfl
    obtain ⟨later, hsteps, hlater, hids⟩ := h.drain (.start entry) hqueue
    refine ⟨later, hsteps, hlater, fun id hid => ?_⟩
    rw [hids]
    exact hid
  | succ steps ih =>
    obtain ⟨now, hnow, hend, hcover⟩ := ih
    have hs : Sound v transform locator entry now := Sound.start.run hnow
    have ho := InOrder.start.run .start hnow
    obtain ⟨later, hlater, hend, hids⟩ := hend.drain hs.toOrderly (List.append_nil _).symm
    refine ⟨later, hnow.trans hlater, hend, fun id hid => ?_⟩
    -- What the modules visited before lead to was seen then, and is visited now.
    rw [hids, ← hs.seen_eq, ho.seen_eq, List.mem_eraseDups]
    rw [View.within, List.mem_eraseDups] at hid
    rcases List.mem_cons.1 hid with rfl | hid
    · exact List.mem_cons_self
    · obtain ⟨one, hone, hid⟩ := List.mem_flatMap.1 hid
      exact .tail _ (List.mem_flatMap.2 ⟨one, hcover one hone, hid⟩)

/-- All that can be reached from an entry whose search does not end can be visited. -/
theorem exists_visit (h : (Search.start entry).Endless v transform locator) {id : String}
    (hreach : Relation.ReflTransGen (v.Leads transform locator) entry id) :
    ∃ found, v.visit transform locator id = .ok found := by
  obtain ⟨steps, hid⟩ := View.exists_mem_within_iff.2 hreach
  obtain ⟨later, hsteps, -, hcover⟩ := h.cover steps
  exact (InOrder.start.run .start hsteps).visited id (hcover id hid)

end Search.Endless

end Bundler

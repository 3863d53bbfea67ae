import Bundler.Graph
import Mathlib.Data.List.Induction
import Mathlib.Data.List.Nodup

/-!
# Tables and graphs under additions

What a table holds after specifiers were set one after another, and a graph after a module was
added.

* `Table.keys_ofList`: the specifiers, each at its first place;
* `Table.mem_of_mem_ofList`: each entry is one of those that were set;
* `Graph.modules_insert`: a module whose identifier is free comes last.
-/

namespace Bundler

/-- Of one more element only its first place counts. -/
theorem eraseDups_concat {α : Type} [DecidableEq α] (l : List α) (a : α) :
    (l ++ [a]).eraseDups = if a ∈ l then l.eraseDups else l.eraseDups ++ [a] := by
  rw [List.eraseDups_append]
  by_cases h : a ∈ l
  · have : ([a] : List α).removeAll l = [] := by simp [List.removeAll, h]
    rw [this, if_pos h, List.eraseDups_nil, List.append_nil]
  · have : ([a] : List α).removeAll l = [a] := by simp [List.removeAll, h]
    rw [this, if_neg h]
    rfl

theorem nodup_eraseDups {α : Type} [DecidableEq α] (l : List α) : l.eraseDups.Nodup := by
  induction l using List.reverseRecOn with
  | nil => exact List.nodup_nil
  | append_singleton l a ih =>
    rw [eraseDups_concat]
    split
    next => exact ih
    next h =>
      rw [← List.concat_eq_append]
      exact ih.concat (by rwa [List.mem_eraseDups])

namespace Table

/-- A specifier that is there keeps its place, and one that is not comes last. -/
theorem keys_set (table : Table) (specifier target : String) :
    (table.set specifier target).keys =
      if specifier ∈ table.keys then table.keys else table.keys ++ [specifier] := by
  by_cases h : specifier ∈ table.entries.map Prod.fst
  · have h' : specifier ∈ table.keys := h
    rw [if_pos h', set, dif_pos h]
    simp only [keys, List.map_map, fst_comp_redirect]
  · have h' : specifier ∉ table.keys := h
    rw [if_neg h', set, dif_neg h]
    simp [keys]

/-- An entry of a changed table is the new one, or was there before. -/
theorem mem_of_mem_set {table : Table} {specifier target : String} {entry : String × String}
    (h : entry ∈ (table.set specifier target).entries) :
    entry = (specifier, target) ∨ entry ∈ table.entries := by
  unfold set at h
  split at h
  · obtain ⟨old, hold, rfl⟩ := List.mem_map.1 h
    by_cases hs : old.1 = specifier
    · exact .inl (by simp [redirect, hs])
    · exact .inr (by simpa [redirect, hs] using hold)
  · rcases List.mem_append.1 h with h | h
    · exact .inr h
    · exact .inl (List.mem_singleton.1 h)

theorem ofList_concat (pairs : List (String × String)) (pair : String × String) :
    ofList (pairs ++ [pair]) = (ofList pairs).set pair.1 pair.2 := by
  simp [ofList]

/-- The specifiers of a table that was made of a list are those of the list, each at its
    first place. -/
theorem keys_ofList (pairs : List (String × String)) :
    (ofList pairs).keys = (pairs.map Prod.fst).eraseDups := by
  induction pairs using List.reverseRecOn with
  | nil => rfl
  | append_singleton pairs pair ih =>
    rw [ofList_concat, keys_set, ih, List.map_append, List.map_singleton, eraseDups_concat]
    simp only [List.mem_eraseDups]

/-- The entries of a table that was made of a list are entries of the list. -/
theorem mem_of_mem_ofList {pairs : List (String × String)} {entry : String × String}
    (h : entry ∈ (ofList pairs).entries) : entry ∈ pairs := by
  induction pairs using List.reverseRecOn with
  | nil => exact h
  | append_singleton pairs pair ih =>
    rw [ofList_concat] at h
    rcases mem_of_mem_set h with rfl | h
    · exact List.mem_append_right _ (List.mem_singleton_self _)
    · exact List.mem_append_left _ (ih h)

end Table

namespace Graph

/-- A module whose identifier is free comes after the others. -/
theorem modules_insert {graph : Graph} {module : Module} (h : module.id ∉ graph.ids) :
    (graph.insert module).2.modules = graph.modules ++ [module] := by
  have h' : module.id ∉ graph.modules.map Module.id := h
  rw [insert, dif_neg h']

theorem ids_insert {graph : Graph} {module : Module} (h : module.id ∉ graph.ids) :
    (graph.insert module).2.ids = graph.ids ++ [module.id] := by
  rw [ids, modules_insert h, List.map_append]
  rfl

/-- A graph is closed if each dependency leads to one of its modules. -/
theorem isClosed_iff {graph : Graph} : graph.isClosed = true ↔
    ∀ module ∈ graph.modules, ∀ entry ∈ module.dependencies.entries, entry.2 ∈ graph.ids := by
  rw [isClosed, List.isEmpty_iff, missing, List.flatMap_eq_nil_iff]
  refine forall₂_congr fun module _ => ?_
  rw [missingOf, List.map_eq_nil_iff, List.filter_eq_nil_iff]
  simp

end Graph

end Bundler

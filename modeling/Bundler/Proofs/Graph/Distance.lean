import Bundler.Proofs.Graph.Order
import Mathlib.Data.Nat.Find
import Mathlib.Order.Bounds.Basic

/-!
# Distances in a graph

The modules of the graph of an entry come in the order of their distances from it, and of those
at one distance the one comes first that was found first. All of this is read off the graph's own
tables. It follows from one equation: the identifiers of the graph are its entry and the targets of
its tables, each at its first place (`Search.InOrder.ids_eq`).

* `Graph.Distance`: the least number of dependencies from the entry to a module;
* `Graph.FirstUse`: where a module is found;
* `Graph.BreadthFirst`: the order that the two give;
* `discover_breadthFirst`: the graph of an entry is in this order.
-/

namespace Bundler

/-! ### Lists without their later copies -/

/-- Whether a part of a list has copies does not matter. -/
theorem eraseDups_append_eraseDups {α : Type} [DecidableEq α] (l more : List α) :
    (l ++ more.eraseDups).eraseDups = (l ++ more).eraseDups := by
  induction more using List.reverseRecOn with
  | nil => rfl
  | append_singleton more a ih =>
    rw [← List.append_assoc, eraseDups_concat (l ++ more), eraseDups_concat more]
    by_cases h : a ∈ more
    · rw [if_pos h, if_pos (List.mem_append_right _ h), ih]
    · rw [if_neg h, ← List.append_assoc, eraseDups_concat, ih]
      simp only [List.mem_append, List.mem_eraseDups]

theorem eraseDups_eraseDups_append {α : Type} [DecidableEq α] (l more : List α) :
    (l.eraseDups ++ more).eraseDups = (l ++ more).eraseDups := by
  induction more using List.reverseRecOn with
  | nil => simpa using eraseDups_append_eraseDups [] l
  | append_singleton more a ih =>
    rw [← List.append_assoc, ← List.append_assoc, eraseDups_concat, eraseDups_concat, ih]
    simp only [List.mem_append, List.mem_eraseDups]

/-- Lists that agree but for copies can stand for each other. -/
theorem eraseDups_append_congr {α : Type} [DecidableEq α] {l l' more more' : List α}
    (h : l.eraseDups = l'.eraseDups) (hmore : more.eraseDups = more'.eraseDups) :
    (l ++ more).eraseDups = (l' ++ more').eraseDups := by
  rw [← eraseDups_eraseDups_append, h, eraseDups_eraseDups_append, ← eraseDups_append_eraseDups,
    hmore, eraseDups_append_eraseDups]

theorem eraseDups_flatMap_congr {α β : Type} [DecidableEq β] {l : List α} {f g : α → List β}
    (h : ∀ a ∈ l, (f a).eraseDups = (g a).eraseDups) :
    (l.flatMap f).eraseDups = (l.flatMap g).eraseDups := by
  induction l with
  | nil => rfl
  | cons a l ih =>
    rw [List.flatMap_cons, List.flatMap_cons]
    exact eraseDups_append_congr (h a (.head _)) (ih fun b hb => h b (.tail _ hb))

theorem eraseDups_map_eraseDups {α β : Type} [DecidableEq α] [DecidableEq β] (l : List α)
    (f : α → β) : (l.eraseDups.map f).eraseDups = (l.map f).eraseDups := by
  induction l using List.reverseRecOn with
  | nil => rfl
  | append_singleton l a ih =>
    rw [eraseDups_concat, List.map_append, List.map_singleton, eraseDups_concat]
    by_cases h : a ∈ l
    · rw [if_pos h, if_pos (List.mem_map_of_mem h), ih]
    · rw [if_neg h, List.map_append, List.map_singleton, eraseDups_concat, ih]
      simp only [List.mem_map, List.mem_eraseDups]

/-- Of two elements of a longer list, if one is new, only the old one can come first. -/
theorem idxOf_concat_lt_iff {α : Type} [DecidableEq α] {l : List α} {a b c : α} (hc : c ∉ l)
    (ha : a ∈ l ++ [c]) (hb : b ∈ l ++ [c]) :
    (l ++ [c]).idxOf a < (l ++ [c]).idxOf b ↔
      a ∈ l ∧ (b ∈ l → l.idxOf a < l.idxOf b) := by
  have hnew {x : α} (hx : x ∈ l ++ [c]) (h : x ∉ l) : x = c :=
    List.mem_singleton.1 ((List.mem_append.1 hx).resolve_left h)
  by_cases hal : a ∈ l
  · rw [List.idxOf_append_of_mem hal]
    by_cases hbl : b ∈ l
    · rw [List.idxOf_append_of_mem hbl]
      simp [hal, hbl]
    · have := List.idxOf_lt_length_iff.2 hal
      rw [List.idxOf_append_of_notMem hbl]
      simp [hal, hbl]
      omega
  · obtain rfl := hnew ha hal
    rw [List.idxOf_append_of_notMem hal, List.idxOf_cons_self]
    by_cases hbl : b ∈ l
    · have := List.idxOf_lt_length_iff.2 hbl
      rw [List.idxOf_append_of_mem hbl]
      simp [hal]
      omega
    · obtain rfl := hnew hb hbl
      simp [hal, List.idxOf_append_of_notMem hal]

/-- Without the later copies the first ones keep their order. -/
theorem idxOf_eraseDups_lt_iff {α : Type} [DecidableEq α] {l : List α} {a b : α} (ha : a ∈ l)
    (hb : b ∈ l) : l.eraseDups.idxOf a < l.eraseDups.idxOf b ↔ l.idxOf a < l.idxOf b := by
  induction l using List.reverseRecOn with
  | nil => cases ha
  | append_singleton l c ih =>
    rw [eraseDups_concat]
    by_cases hc : c ∈ l
    · have hold {x : α} (hx : x ∈ l ++ [c]) : x ∈ l :=
        (List.mem_append.1 hx).elim id fun h => List.mem_singleton.1 h ▸ hc
      rw [if_pos hc, List.idxOf_append_of_mem (hold ha), List.idxOf_append_of_mem (hold hb)]
      exact ih (hold ha) (hold hb)
    · have hc' : c ∉ l.eraseDups := by rwa [List.mem_eraseDups]
      have hmem {x : α} (hx : x ∈ l ++ [c]) : x ∈ l.eraseDups ++ [c] := by
        simpa only [List.mem_append, List.mem_eraseDups] using hx
      rw [if_neg hc, idxOf_concat_lt_iff hc' (hmem ha) (hmem hb), idxOf_concat_lt_iff hc ha hb]
      simp only [List.mem_eraseDups]
      refine and_congr_right fun ha => forall_congr' fun hb => ?_
      exact ih ha hb

/-! ### Distances -/

namespace Module

/-- What the specifiers of a module stand for, in the order of its table. -/
def targets (module : Module) : List String :=
  module.dependencies.entries.map Prod.snd

end Module

namespace Graph

/-- Some number of dependencies lead from the entry to a module. -/
inductive ReachedIn (graph : Graph) : Nat → String → Prop where
  /-- None lead to the entry itself. -/
  | entry {id : String} (h : graph.entry? = some id) : ReachedIn graph 0 id
  /-- One more leads to a target of the module that was come to. -/
  | step {steps : Nat} {module : Module} {target : String} (hm : module ∈ graph.modules)
    (hr : ReachedIn graph steps module.id) (ht : target ∈ module.targets) :
    ReachedIn graph (steps + 1) target

/-- The least number of dependencies that lead from the entry to a module. -/
def Distance (graph : Graph) (id : String) (steps : Nat) : Prop :=
  IsLeast {n | graph.ReachedIn n id} steps

/-- Where a module is found: the place of the first module whose table leads to it, and in that
    table the place of the first specifier that stands for it. -/
inductive FirstUse (graph : Graph) (id : String) : Nat → Nat → Prop where
  /-- No module before that one depends on it, and no specifier before that one stands for it. -/
  | intro {before after : List Module} {module : Module} {others more : List String}
    (hmodules : graph.modules = before ++ module :: after)
    (hbefore : ∀ earlier ∈ before, id ∉ earlier.targets)
    (htargets : module.targets = others ++ id :: more) (hothers : id ∉ others) :
    FirstUse graph id before.length others.length

/-- The modules of a graph come in breadth-first order. -/
structure BreadthFirst (graph : Graph) : Prop where
  /-- Each module is at some distance from the entry. -/
  reached : ∀ id ∈ graph.ids, ∃ steps, graph.Distance id steps
  /-- Distances never decrease. -/
  sorted : graph.ids.Pairwise fun one other =>
    ∀ m n, graph.Distance one m → graph.Distance other n → m ≤ n
  /-- Each module but the entry is found somewhere. -/
  found : ∀ id ∈ graph.ids, graph.entry? = some id ∨ ∃ place use, graph.FirstUse id place use
  /-- Of two modules at one distance the one comes first whose finder comes first or, where they
      share it, whose first specifier in the finder's table comes first. -/
  first : ∀ one ∈ graph.ids, ∀ other ∈ graph.ids, one ≠ other → ∀ steps,
    graph.Distance one steps → graph.Distance other steps → ∀ place use place' use',
    graph.FirstUse one place use → graph.FirstUse other place' use' →
    (graph.ids.idxOf one < graph.ids.idxOf other ↔
      place < place' ∨ place = place' ∧ use < use')

section

variable {graph : Graph} {entry : String}

theorem reachedIn_zero {id : String} : graph.ReachedIn 0 id ↔ graph.entry? = some id :=
  ⟨fun h => by cases h with | entry h => exact h, .entry⟩

theorem reachedIn_succ {steps : Nat} {target : String} :
    graph.ReachedIn (steps + 1) target ↔
      ∃ module ∈ graph.modules, graph.ReachedIn steps module.id ∧ target ∈ module.targets := by
  constructor
  · intro h
    cases h with
    | step hm hr ht => exact ⟨_, hm, hr, ht⟩
  · rintro ⟨module, hm, hr, ht⟩
    exact .step hm hr ht

/-- Within one more step there are the entry and the targets of what was there before. -/
theorem within_succ (hentry : graph.entry? = some entry) {steps : Nat} {id : String} :
    (∃ m ≤ steps + 1, graph.ReachedIn m id) ↔
      id = entry ∨ ∃ module ∈ graph.modules,
        (∃ m ≤ steps, graph.ReachedIn m module.id) ∧ id ∈ module.targets := by
  constructor
  · rintro ⟨_ | m, hm, h⟩
    · rw [reachedIn_zero, hentry] at h
      exact .inl (Option.some.inj h).symm
    · obtain ⟨module, hmodule, hr, ht⟩ := reachedIn_succ.1 h
      exact .inr ⟨module, hmodule, ⟨m, Nat.le_of_succ_le_succ hm, hr⟩, ht⟩
  · rintro (rfl | ⟨module, hmodule, ⟨m, hm, hr⟩, ht⟩)
    · exact ⟨0, Nat.zero_le _, .entry hentry⟩
    · exact ⟨m + 1, Nat.succ_le_succ hm, .step hmodule hr ht⟩

theorem mem_take_iff {module : Module} (hm : module ∈ graph.modules) (count : Nat) :
    module ∈ graph.modules.take count ↔ module.id ∈ graph.ids.take count := by
  rw [ids, ← List.map_take]
  constructor
  · exact List.mem_map_of_mem
  · intro h
    obtain ⟨other, hother, heq⟩ := List.mem_map.1 h
    have := List.inj_on_of_nodup_map graph.distinct (List.mem_of_mem_take hother) hm heq
    exact this ▸ hother

/-! ### Graphs that list their targets -/

variable (hids : graph.ids = (entry :: graph.modules.flatMap Module.targets).eraseDups)

include hids

theorem entry?_of_ids_eq : graph.entry? = some entry := by
  rw [Graph.entry?, hids, List.eraseDups_cons]
  rfl

/-- The modules within a number of steps are the first ones of the graph. -/
theorem exists_mem_take_iff (steps : Nat) :
    ∃ count, ∀ id, id ∈ graph.ids.take count ↔ ∃ m ≤ steps, graph.ReachedIn m id := by
  have hentry := entry?_of_ids_eq hids
  induction steps with
  | zero =>
    refine ⟨1, fun id => ?_⟩
    have htake : graph.ids.take 1 = [entry] := by
      rw [hids, List.eraseDups_cons]
      rfl
    rw [htake, List.mem_singleton]
    constructor
    · rintro rfl
      exact ⟨0, Nat.le_refl _, .entry hentry⟩
    · rintro ⟨m, hm, h⟩
      obtain rfl : m = 0 := Nat.le_zero.1 hm
      rw [reachedIn_zero, hentry] at h
      exact (Option.some.inj h).symm
  | succ steps ih =>
    obtain ⟨count, hcount⟩ := ih
    -- What the first modules lead to, each at its first place, comes first in the graph.
    have hstarts : (entry :: (graph.modules.take count).flatMap Module.targets).eraseDups <+:
        graph.ids := by
      rw [hids]
      exact eraseDups_prefix (List.cons_prefix_cons.2
        ⟨rfl, (List.take_prefix _ _).flatMap _⟩)
    refine ⟨(entry :: (graph.modules.take count).flatMap Module.targets).eraseDups.length,
      fun id => ?_⟩
    rw [← List.prefix_iff_eq_take.1 hstarts, List.mem_eraseDups, within_succ hentry, List.mem_cons,
      List.mem_flatMap]
    refine or_congr_right (exists_congr fun module => ?_)
    constructor
    · rintro ⟨hm, ht⟩
      have hmem := List.mem_of_mem_take hm
      exact ⟨hmem, (hcount _).1 ((mem_take_iff hmem count).1 hm), ht⟩
    · rintro ⟨hmem, hr, ht⟩
      exact ⟨(mem_take_iff hmem count).2 ((hcount _).2 hr), ht⟩

/-- Distances never decrease along the graph. -/
theorem pairwise_distance_le : graph.ids.Pairwise fun one other =>
    ∀ m n, graph.Distance one m → graph.Distance other n → m ≤ n := by
  rw [List.pairwise_iff_getElem]
  intro i j hi hj hij m n hm hn
  -- What is within the distance of the later one starts the graph, so the earlier one is in it.
  obtain ⟨count, hcount⟩ := exists_mem_take_iff hids n
  have hlater := (hcount _).2 ⟨n, Nat.le_refl _, hn.1⟩
  obtain ⟨k, hk, hkj⟩ := List.mem_iff_getElem.1 hlater
  rw [List.getElem_take] at hkj
  have hdistinct : graph.ids.Nodup := graph.distinct
  obtain rfl : k = j := hdistinct.getElem_inj_iff.1 hkj
  have hearlier : graph.ids[i] ∈ graph.ids.take count := by
    rw [List.length_take] at hk
    exact List.mem_take_iff_getElem.2 ⟨i, by omega, rfl⟩
  obtain ⟨least, hleast, hr⟩ := (hcount _).1 hearlier
  exact (hm.2 hr).trans hleast

end

/-! ### First uses -/

section

variable {graph : Graph}

/-- A module that others depend on is found somewhere. -/
theorem exists_firstUse {module : Module} {id : String} (hm : module ∈ graph.modules)
    (ht : id ∈ module.targets) : ∃ place use, graph.FirstUse id place use := by
  let leads : Module → Bool := fun module => module.targets.contains id
  have hsome : (graph.modules.find? leads).isSome :=
    List.find?_isSome.2 ⟨module, hm, List.contains_iff_mem.2 ht⟩
  obtain ⟨finder, hfinder⟩ := Option.isSome_iff_exists.1 hsome
  obtain ⟨hleads, before, after, hmodules, hbefore⟩ := List.find?_eq_some_iff_append.1 hfinder
  obtain ⟨others, more, htargets, hothers⟩ :=
    List.eq_append_cons_of_mem (List.contains_iff_mem.1 hleads)
  refine ⟨_, _, .intro hmodules (fun earlier hearlier => ?_) htargets hothers⟩
  have := hbefore earlier hearlier
  simpa [leads] using this

/-- Among all targets, a module comes after those that stand before its first use. -/
theorem idxOf_flatMap_targets {before after : List Module} {module : Module}
    {others more : List String} {id : String}
    (hmodules : graph.modules = before ++ module :: after)
    (hbefore : ∀ earlier ∈ before, id ∉ earlier.targets)
    (htargets : module.targets = others ++ id :: more) (hothers : id ∉ others) :
    (graph.modules.flatMap Module.targets).idxOf id =
      (before.flatMap Module.targets).length + others.length := by
  have hnone : id ∉ before.flatMap Module.targets := by
    rw [List.mem_flatMap]
    rintro ⟨earlier, hearlier, hid⟩
    exact hbefore earlier hearlier hid
  rw [hmodules, List.flatMap_append, List.flatMap_cons, htargets,
    List.idxOf_append_of_notMem hnone, List.append_assoc, List.idxOf_append_of_notMem hothers,
    List.cons_append, List.idxOf_cons_self, Nat.add_zero]

/-- Among all targets, modules come in the order of their first uses. -/
theorem FirstUse.idxOf_lt {one other : String} {place use place' use' : Nat}
    (h : graph.FirstUse one place use) (h' : graph.FirstUse other place' use')
    (hlt : place < place' ∨ place = place' ∧ use < use') :
    (graph.modules.flatMap Module.targets).idxOf one <
      (graph.modules.flatMap Module.targets).idxOf other := by
  obtain @⟨before, after, module, others, more, hmodules, hbefore, htargets, hothers⟩ := h
  obtain @⟨before', after', module', others', more', hmodules', hbefore', htargets', hothers'⟩ := h'
  rw [idxOf_flatMap_targets hmodules hbefore htargets hothers,
    idxOf_flatMap_targets hmodules' hbefore' htargets' hothers']
  rcases hlt with hlt | ⟨heq, hlt⟩
  · -- The targets of the module that comes first all stand before the other first use.
    have hone : before ++ [module] <+: graph.modules := ⟨after, by simp [hmodules]⟩
    have hother : before' <+: graph.modules := ⟨_, hmodules'.symm⟩
    have hstarts : before ++ [module] <+: before' := by
      refine List.prefix_of_prefix_length_le hone hother ?_
      rw [List.length_append]
      exact hlt
    have hlength := (hstarts.flatMap Module.targets).length_le
    rw [List.flatMap_append, List.flatMap_singleton, List.length_append, htargets,
      List.length_append, List.length_cons] at hlength
    omega
  · obtain ⟨rfl, -⟩ := List.append_inj (hmodules.symm.trans hmodules') heq
    omega

/-- Modules with one first use are one module. -/
theorem FirstUse.eq {one other : String} {place use : Nat} (h : graph.FirstUse one place use)
    (h' : graph.FirstUse other place use) : one = other := by
  generalize hplace : place = place', huse : use = use' at h'
  obtain @⟨before, after, module, others, more, hmodules, -, htargets, -⟩ := h
  obtain @⟨before', after', module', others', more', hmodules', -, htargets', -⟩ := h'
  obtain ⟨-, hmodule⟩ := List.append_inj (hmodules.symm.trans hmodules') hplace
  obtain rfl := (List.cons.inj hmodule).1
  obtain ⟨-, hid⟩ := List.append_inj (htargets.symm.trans htargets') huse
  exact (List.cons.inj hid).1

theorem FirstUse.idxOf_lt_iff {one other : String} {place use place' use' : Nat}
    (h : graph.FirstUse one place use) (h' : graph.FirstUse other place' use')
    (hne : one ≠ other) :
    (graph.modules.flatMap Module.targets).idxOf one <
        (graph.modules.flatMap Module.targets).idxOf other ↔
      place < place' ∨ place = place' ∧ use < use' := by
  refine ⟨fun hlt => ?_, h.idxOf_lt h'⟩
  by_contra hnot
  rcases Nat.lt_trichotomy place place' with hplace | rfl | hplace
  · exact hnot (.inl hplace)
  · rcases Nat.lt_trichotomy use use' with huse | rfl | huse
    · exact hnot (.inr ⟨rfl, huse⟩)
    · exact hne (h.eq h')
    · exact Nat.lt_asymm hlt (h'.idxOf_lt h (.inr ⟨rfl, huse⟩))
  · exact Nat.lt_asymm hlt (h'.idxOf_lt h (.inl hplace))

theorem FirstUse.mem {id : String} {place use : Nat} (h : graph.FirstUse id place use) :
    id ∈ graph.modules.flatMap Module.targets := by
  obtain ⟨hmodules, -, htargets, -⟩ := h
  rw [hmodules, List.mem_flatMap]
  exact ⟨_, List.mem_append_right _ (.head _), htargets ▸ List.mem_append_right _ (.head _)⟩

end

/-- A graph that lists its entry and then the targets of its tables, all of which can be reached,
    is in breadth-first order. -/
theorem breadthFirst_of_ids_eq {graph : Graph} {entry : String}
    (hids : graph.ids = (entry :: graph.modules.flatMap Module.targets).eraseDups)
    (hreached : ∀ id ∈ graph.ids, ∃ steps, graph.ReachedIn steps id) : graph.BreadthFirst := by
  classical
  have hentry := entry?_of_ids_eq hids
  constructor
  case reached =>
    intro id hid
    have h := hreached id hid
    exact ⟨Nat.find h, Nat.find_spec h, fun _ => Nat.find_min' h⟩
  case sorted => exact pairwise_distance_le hids
  case found =>
    intro id hid
    rw [hids, List.mem_eraseDups, List.mem_cons, List.mem_flatMap] at hid
    rcases hid with rfl | ⟨module, hm, ht⟩
    · exact .inl hentry
    · exact .inr (exists_firstUse hm ht)
  case first =>
    intro one _ other _ hne steps hone hother place use place' use' h h'
    -- The entry is alone at its distance, so both stand behind it.
    have hzero : graph.Distance entry 0 := ⟨.entry hentry, fun _ _ => Nat.zero_le _⟩
    have halone {id : String} (hid : graph.Distance id 0) : id = entry :=
      Option.some.inj ((reachedIn_zero.1 hid.1).symm.trans hentry)
    have hone' : one ≠ entry := by
      rintro rfl
      obtain rfl := hone.unique hzero
      exact hne (halone hother).symm
    have hother' : other ≠ entry := by
      rintro rfl
      obtain rfl := hother.unique hzero
      exact hne (halone hone)
    rw [hids, idxOf_eraseDups_lt_iff (List.mem_cons_of_mem _ h.mem) (List.mem_cons_of_mem _ h'.mem),
      List.idxOf_cons_ne _ hone'.symm, List.idxOf_cons_ne _ hother'.symm, Nat.succ_lt_succ_iff]
    exact h.idxOf_lt_iff h' hne

end Graph

/-! ### Searches -/

section

variable {v : View} {transform : Transformer} {locator : Locator}

/-- The specifier of an entry stands for its target. -/
theorem View.Gives.target_eq {module : Module} (h : v.Gives transform locator module)
    {entry : String × String} (he : entry ∈ module.dependencies.entries) :
    v.target locator module.id entry.1 = .ok entry.2 := by
  obtain ⟨_, _, _, _, _, _, htargets⟩ := h
  obtain ⟨path, hpath, hfile⟩ := htargets entry he
  simp only [View.target, hpath, hfile]

/-- What specifiers stand for, where each stands for a file. -/
theorem View.map_snd_eq {id : String} {pairs : List (String × String)}
    (h : ∀ pair ∈ pairs, v.target locator id pair.1 = .ok pair.2) :
    pairs.map Prod.snd =
      (pairs.map Prod.fst).map fun specifier =>
        (v.target locator id specifier).toOption.getD "" := by
  rw [List.map_map]
  refine List.map_congr_left fun pair hp => ?_
  rw [Function.comp_apply, h pair hp]
  rfl

/-- The targets in the table of a module are what it leads to, but for copies. -/
theorem View.Gives.eraseDups_targets {module : Module} (h : v.Gives transform locator module)
    {found : String × List (String × String)}
    (hv : v.visit transform locator module.id = .ok found) :
    module.targets.eraseDups = (v.next transform locator module.id).eraseDups := by
  have htable := View.map_snd_eq fun _ => h.target_eq
  obtain ⟨source, lowered, hread, hlowered, -, hkeys, -⟩ := h
  obtain ⟨source', lowered', hread', hlowered', -, hspecifiers, htargets⟩ :=
    View.lowered_of_visit hv
  obtain rfl : source' = source := Except.ok.inj (hread'.symm.trans hread)
  obtain rfl : lowered' = lowered := Except.ok.inj (hlowered'.symm.trans hlowered)
  have hkeys' : module.dependencies.entries.map Prod.fst = lowered'.specifiers.eraseDups := hkeys
  rw [View.next_of_visit hv, View.map_snd_eq htargets, hspecifiers, Module.targets, htable, hkeys',
    eraseDups_map_eraseDups]

end

namespace Search

variable {v : View} {transform : Transformer} {locator : Locator} {entry : String}
  {search : Search}

/-- A graph that is complete lists its entry and then the targets of its tables. -/
theorem InOrder.ids_eq (ho : InOrder v transform locator entry search)
    (hs : Sound v transform locator entry search) (hq : search.queue = []) :
    search.graph.ids =
      (entry :: search.graph.modules.flatMap Module.targets).eraseDups := by
  have hseen := hs.seen_eq
  rw [hq, List.append_nil] at hseen
  have htargets : (search.graph.modules.flatMap Module.targets).eraseDups =
      (search.graph.ids.flatMap (v.next transform locator)).eraseDups := by
    rw [Graph.ids, List.flatMap_map]
    refine eraseDups_flatMap_congr fun module hm => ?_
    obtain ⟨found, hv⟩ := ho.visited module.id (List.mem_map_of_mem hm)
    exact (hs.gives module hm).eraseDups_targets hv
  rw [← hseen, ho.seen_eq]
  exact eraseDups_append_congr (Eq.refl [entry].eraseDups) htargets.symm

/-- The modules of a graph that is complete are reached in some number of steps. -/
theorem Sound.exists_reachedIn (hs : Sound v transform locator entry search)
    (hq : search.queue = []) (hentry : search.graph.entry? = some entry) :
    ∀ id ∈ search.graph.ids, ∃ steps, search.graph.ReachedIn steps id := by
  intro id hid
  induction (hs.mem_ids_iff hq id).1 hid with
  | refl => exact ⟨0, .entry hentry⟩
  | tail hreach hr ih =>
    have hone := (hs.mem_ids_iff hq _).2 hreach
    obtain ⟨steps, hsteps⟩ := ih hone
    obtain ⟨module, hm, rfl⟩ := List.mem_map.1 hone
    obtain ⟨pair, hp, rfl⟩ := (hs.gives module hm).target_mem hr
    exact ⟨steps + 1, .step hm hsteps (List.mem_map_of_mem hp)⟩

end Search

section

variable {σ : Type} [FileStore (StateM σ)] [Reporter (StateM σ)] [Steady σ]

/-- The graph that is found for an entry is in breadth-first order. -/
theorem discover_breadthFirst (transform : Transformer) (locator : Locator) (path : String)
    (s s' : σ) (graph : Graph)
    (h : (discover transform.told locator path : Run σ (Except Error Graph)) s =
      some (.ok graph, s')) :
    graph.BreadthFirst := by
  obtain ⟨entry, last, -, hsteps, hq, rfl⟩ := steps_of_discover h
  have hs := Search.Sound.start.run hsteps
  have hids := (Search.InOrder.start.run .start hsteps).ids_eq hs hq
  exact Graph.breadthFirst_of_ids_eq hids
    (hs.exists_reachedIn hq (Graph.entry?_of_ids_eq hids))

end

/-- Five files: the first names the second and the third, these name the fourth, the first, and
    the fifth, and the fourth names the second. -/
def layered : Memory where
  files := [("a.js", "bc"), ("b.js", "da"), ("c.js", "de"), ("d.js", "b"), ("e.js", "")]
  refusedReads := []
  refusedWrites := []
  refusedDirectories := []
  journal := []

theorem discover_layered_breadthFirst :
    ∃ graph memory,
      (discover lettered.told ⟨[".js"]⟩ "a" : Run Memory (Except Error Graph)) layered =
        some (.ok graph, memory) ∧
      graph.ids = ["a.js", "b.js", "c.js", "d.js", "e.js"] ∧ graph.BreadthFirst := by
  have within : ((View.of layered).discoverWithin lettered ⟨[".js"]⟩ 5 "a").bind
      (·.1.toOption.map Graph.ids) = some ["a.js", "b.js", "c.js", "d.js", "e.js"] := by
    decide +kernel
  obtain ⟨graph, memory, hgraph, hids⟩ := exists_discover within
  exact ⟨graph, memory, hgraph, hids,
    discover_breadthFirst lettered _ "a" layered memory graph hgraph⟩

end Bundler

import Bundler.Proofs.Graph.Table

/-!
# Graphs made by inserts

Modules are inserted into a graph one after another, in any order and as often as one likes. Of
those with one identifier the first stays. A module that is added answers the dependencies that
were waiting for its identifier, and brings its own, of which those wait that lead neither to it nor
to a module before it.

* `Graph.ofList`, `Graph.firsts`: the graph of a row of inserts, and what should be in it;
* `Graph.modules_ofList`: that is in it;
* `Graph.missing_insert`: what one insert does to the dependencies that lead out of a graph;
* `Graph.ofList_inserts`: every insert of every row.
-/

namespace Bundler.Graph

/-- The graph without modules after modules were inserted one after another. -/
def ofList (modules : List Module) : Graph :=
  modules.foldl (fun graph module => (graph.insert module).2) empty

/-- The modules whose identifier none before them has. -/
def firsts : List Module → List Module
  | [] => []
  | module :: more => module :: (firsts more).filter fun later => later.id ≠ module.id

/-! ### One insert -/

/-- An insert tells whether the identifier was free. -/
theorem fst_insert (graph : Graph) (module : Module) :
    (graph.insert module).1 = true ↔ module.id ∉ graph.ids := by
  have hids : graph.ids = graph.modules.map Module.id := rfl
  rw [insert, hids]
  split
  next h => exact iff_of_false Bool.false_ne_true (not_not_intro h)
  next h => exact iff_of_true rfl h

/-- Where the identifier is taken, nothing changes. -/
theorem snd_insert_of_mem {graph : Graph} {module : Module} (h : module.id ∈ graph.ids) :
    (graph.insert module).2 = graph := by
  have h : module.id ∈ graph.modules.map Module.id := h
  rw [insert, dif_pos h]

/-- What a module is missing where there is one more identifier. -/
theorem missingOf_concat (ids : List String) (id : String) (module : Module) :
    missingOf (ids ++ [id]) module = (missingOf ids module).filter (·.target ≠ id) := by
  rw [missingOf, missingOf, List.filter_map, List.filter_filter]
  refine congrArg _ (List.filter_congr fun entry _ => ?_)
  simp [Bool.and_comm]

/-- A module that is added answers the dependencies that lead to it, and adds its own that lead
    neither to it nor to a module of the graph. -/
theorem missing_insert {graph : Graph} {module : Module} (h : module.id ∉ graph.ids) :
    (graph.insert module).2.missing =
      graph.missing.filter (·.target ≠ module.id) ++ missingOf (graph.ids ++ [module.id]) module := by
  rw [missing, ids_insert h, modules_insert h, List.flatMap_append, List.flatMap_singleton, missing,
    List.filter_flatMap]
  refine congrArg (· ++ _) (List.flatMap_congr fun _ _ => ?_)
  exact missingOf_concat _ _ _

/-- A graph becomes closed when the last identifier that its dependencies wait for is inserted, with
    no dependency that has to wait for another one. -/
theorem isClosed_insert_iff {graph : Graph} {module : Module} :
    graph.isClosed = false ∧ (graph.insert module).2.isClosed = true ↔
      graph.missing ≠ [] ∧ module.id ∉ graph.ids ∧
        (∀ missing ∈ graph.missing, missing.target = module.id) ∧
        ∀ entry ∈ module.dependencies.entries, entry.2 = module.id ∨ entry.2 ∈ graph.ids := by
  have hopen : graph.isClosed = false ↔ graph.missing ≠ [] := by
    rw [isClosed, List.isEmpty_eq_false_iff]
  by_cases hid : module.id ∈ graph.ids
  · rw [snd_insert_of_mem hid]
    exact iff_of_false (fun h => Bool.noConfusion (h.1.symm.trans h.2)) fun h => h.2.1 hid
  · have hclosed : (graph.insert module).2.isClosed = true ↔
        (∀ missing ∈ graph.missing, missing.target = module.id) ∧
          ∀ entry ∈ module.dependencies.entries, entry.2 = module.id ∨ entry.2 ∈ graph.ids := by
      rw [isClosed, List.isEmpty_iff, missing_insert hid, List.append_eq_nil_iff,
        List.filter_eq_nil_iff, missingOf, List.map_eq_nil_iff, List.filter_eq_nil_iff]
      refine and_congr ?_ (forall₂_congr fun entry _ => ?_)
      · simp
      · rw [or_comm, or_iff_not_imp_left]
        simp
    rw [hopen, hclosed, and_iff_right hid]

/-! ### Rows of inserts -/

theorem ofList_concat (modules : List Module) (module : Module) :
    ofList (modules ++ [module]) = ((ofList modules).insert module).2 := by
  rw [ofList, List.foldl_append]
  rfl

theorem mem_firsts_ids {modules : List Module} {id : String} :
    id ∈ (firsts modules).map Module.id ↔ id ∈ modules.map Module.id := by
  induction modules with
  | nil => rfl
  | cons module more ih =>
    rw [firsts, List.map_cons, List.map_cons, List.mem_cons, List.mem_cons, ← ih]
    by_cases hid : id = module.id
    · exact iff_of_true (.inl hid) (.inl hid)
    · refine or_congr_right ?_
      simp only [List.mem_map, List.mem_filter, decide_eq_true_eq]
      constructor
      · rintro ⟨later, ⟨hlater, -⟩, rfl⟩
        exact ⟨later, hlater, rfl⟩
      · rintro ⟨later, hlater, rfl⟩
        exact ⟨later, ⟨hlater, hid⟩, rfl⟩

/-- One more module is a first one if its identifier was free. -/
theorem firsts_concat (modules : List Module) (module : Module) :
    firsts (modules ++ [module]) =
      if module.id ∈ modules.map Module.id then firsts modules else firsts modules ++ [module] := by
  induction modules with
  | nil => rfl
  | cons first more ih =>
    rw [List.cons_append, firsts, ih, firsts, List.map_cons]
    -- It is left out for one of the later modules, or for the first one, or not at all.
    by_cases hmore : module.id ∈ more.map Module.id
    · rw [if_pos hmore, if_pos (.tail _ hmore)]
    by_cases hfirst : module.id = first.id
    · rw [if_neg hmore, if_pos (hfirst ▸ .head _), List.filter_append]
      simp [hfirst]
    · rw [if_neg hmore, if_neg (List.not_mem_cons_of_ne_of_not_mem hfirst hmore),
        List.filter_append, List.cons_append]
      simp [hfirst]

/-- A row of inserts leaves the first module of each identifier, in order. -/
theorem modules_ofList (modules : List Module) : (ofList modules).modules = firsts modules := by
  induction modules using List.reverseRecOn with
  | nil => rfl
  | append_singleton modules module ih =>
    have hids : module.id ∈ (ofList modules).ids ↔ module.id ∈ modules.map Module.id := by
      rw [ids, ih, mem_firsts_ids]
    rw [ofList_concat, firsts_concat]
    by_cases hmem : module.id ∈ modules.map Module.id
    · rw [if_pos hmem, snd_insert_of_mem (hids.2 hmem), ih]
    · rw [if_neg hmem, modules_insert (mt hids.1 hmem), ih]

theorem mem_ids_ofList {modules : List Module} {id : String} :
    id ∈ (ofList modules).ids ↔ id ∈ modules.map Module.id := by
  rw [ids, modules_ofList, mem_firsts_ids]

theorem entry?_ofList (modules : List Module) :
    Graph.entry? (ofList modules) = modules.head?.map Module.id := by
  rw [Graph.entry?, ids, modules_ofList]
  cases modules with
  | nil => rfl
  | cons => rfl

/-- After modules were inserted one after another into the graph without modules, in whatever order
    and with whatever identifiers, the graph has the first module of each identifier in the order
    of the inserts, and starts with the first of all. The next insert answers whether its identifier
    is new. If it is not, nothing changes. If it is, then of the dependencies that lead out of
    the graph those to the new module no longer do, and behind the others come those of
    the module that lead neither to it nor to a module before it, in the order of its table. So the
    graph becomes closed by just the insert that all its open dependencies waited for, of a
    module that brings no other one. -/
theorem ofList_inserts (modules : List Module) :
    (ofList modules).modules = firsts modules ∧
      Graph.entry? (ofList modules) = modules.head?.map Module.id ∧
      ∀ module : Module,
        let old := ofList modules
        let new := (old.insert module).2
        let earlier := modules.map Module.id
        ((old.insert module).1 = true ↔ module.id ∉ earlier) ∧
        (module.id ∈ earlier → new = old) ∧
        (module.id ∉ earlier → new.missing =
          old.missing.filter (·.target ≠ module.id) ++
            (module.dependencies.entries.filter fun entry =>
              entry.2 ≠ module.id ∧ entry.2 ∉ earlier).map
                fun entry => ⟨module.id, entry.1, entry.2⟩) ∧
        (old.isClosed = false ∧ new.isClosed = true ↔
          old.missing ≠ [] ∧ module.id ∉ earlier ∧
            (∀ missing ∈ old.missing, missing.target = module.id) ∧
            ∀ entry ∈ module.dependencies.entries,
              entry.2 = module.id ∨ entry.2 ∈ earlier) := by
  refine ⟨modules_ofList modules, entry?_ofList modules, fun module => ?_⟩
  have hids (id : String) : id ∈ (ofList modules).ids ↔ id ∈ modules.map Module.id := mem_ids_ofList
  refine ⟨?_, fun h => snd_insert_of_mem ((hids _).2 h), fun h => ?_, ?_⟩
  · rw [fst_insert, hids]
  · rw [missing_insert (mt (hids _).1 h), missingOf]
    refine congrArg _ (congrArg _ (List.filter_congr fun entry _ => ?_))
    rw [Bool.eq_iff_iff]
    simp [hids, and_comm]
  · simp only [isClosed_insert_iff, hids]

/-- A module with an identifier and dependencies that lead to some others. -/
def linked (id : String) (targets : List String) : Module where
  id := id
  code := ""
  dependencies := Table.ofList (targets.map fun target => ("./" ++ target, target))

theorem ofList_inserts_answered :
    let modules := [linked "a" ["b", "c", "a"], linked "b" ["a", "c"], linked "a" ["d"]]
    let last := linked "c" ["c", "d", "b"]
    "c" ∉ modules.map Module.id ∧ "b" ∈ modules.map Module.id ∧
      (ofList modules).missing = [⟨"a", "./c", "c"⟩, ⟨"b", "./c", "c"⟩] ∧
      ((ofList modules).insert last).2.missing = [⟨"c", "./d", "d"⟩] ∧
      ((ofList modules).insert (linked "b" [])).2 = ofList modules := by
  intro modules last
  obtain ⟨-, -, hinsert⟩ := ofList_inserts modules
  have hnew : "c" ∉ modules.map Module.id := by decide
  have hold : "b" ∈ modules.map Module.id := by decide
  have hmissing : (ofList modules).missing = [⟨"a", "./c", "c"⟩, ⟨"b", "./c", "c"⟩] := by decide
  refine ⟨hnew, hold, hmissing, ?_, (hinsert (linked "b" [])).2.1 hold⟩
  rw [(hinsert last).2.2.1 hnew, hmissing]
  decide

end Bundler.Graph

import Bundler.Build
import Bundler.Proofs.Graph.Searches

/-!
# The course of a build

In a steady store the bundle of a plan depends on what can be seen of the store alone. A build asks
and tells what it takes to make that bundle, puts it into its file, and tells that it is done.

* `Plan.assembled`, `Plan.assembledLooks`: the bundle of a plan, and what is asked and told to make
  it;
* `Output.run_emit`: how a bundle is put into its file;
* `Plan.build_of_discovers`: a build is the one and then the other.
-/

namespace Bundler

/-- A bundle that is not in its file yet. -/
structure Bundled where
  /-- The modules of the bundle. -/
  graph : Graph
  /-- The identifier of the entry. -/
  entry : String
  /-- The text of the bundle, before it is laid out. -/
  text : String

/-- What is told of a bundle that is in its file. -/
def Bundled.receipt (bundled : Bundled) (output : OutputFile) : Receipt :=
  { entry := bundled.entry, modules := bundled.graph.size, output, time := ⟨0⟩ }

namespace Plan

variable (plan : Plan)

/-- The bundle of a plan, made from what came of the search for its graph. -/
def assembled (found : Except Error Graph) : Except Error Bundled :=
  match found with
  | .error error => .error error
  | .ok graph =>
    match graph.entry? with
    | none => .error (.generate .noModules)
    | some entry =>
      (Bundle.generate graph entry plan.strictCycles).map fun text => { graph, entry, text }

/-- What is asked and told to make the bundle of a plan, around the search for its graph. -/
def assembledLooks (found : Except Error Graph) (looks : List Look) : List Look :=
  [.tell (.started "Build"), .tell .build, .tell (.entry plan.entry),
    .tell (.output plan.output.file)] ++ looks ++
    match plan.assembled found with
    | .error _ => []
    | .ok bundled =>
      [.tell (.generated bundled.graph.size (Text.byteLength bundled.text.toList))]

variable {plan} {found : Except Error Graph}

theorem assembled_eq_ok {bundled : Bundled} (h : plan.assembled found = .ok bundled) :
    found = .ok bundled.graph ∧ bundled.graph.entry? = some bundled.entry ∧
      Bundle.generate bundled.graph bundled.entry plan.strictCycles = .ok bundled.text := by
  unfold Plan.assembled at h
  split at h
  · cases h
  next graph =>
    split at h
    · cases h
    next entry hentry =>
      cases htext : Bundle.generate graph entry plan.strictCycles with
      | error error =>
        rw [htext] at h
        cases h
      | ok text =>
        rw [htext] at h
        cases h
        exact ⟨rfl, hentry, htext⟩

theorem assembled_eq_error {error : Error} (h : plan.assembled found = .error error) :
    found = .error error ∨ ∃ fault, error = .generate fault := by
  unfold Plan.assembled at h
  split at h
  · cases h
    exact .inl rfl
  next graph =>
    split at h
    · cases h
      exact .inr ⟨_, rfl⟩
    next entry _ =>
      unfold Bundle.generate at h
      split at h
      · cases h
        exact .inr ⟨_, rfl⟩
      · cases h

end Plan

section

variable {σ : Type} [FileStore (StateM σ)] [Reporter (StateM σ)] [Steady σ]

/-- A bundle that can be laid out has its directory made and then its file written, and the first
    that fails ends it. -/
theorem Output.run_emit (output : Output) (format : Formatter) (bundle : String) (s : σ) :
    (output.emit format bundle : ExceptT Error (Run σ) OutputFile).run s =
      match output.finish format bundle with
      | .error error => some (.error error, s)
      | .ok text =>
        match (FileStore.makeDirectory output.directory : StateM σ (Except FileFault Unit)) s with
        | (.error fault, s) => some (.error (.emit output.directory fault), s)
        | (.ok (), s) =>
          match (FileStore.write output.file text : StateM σ (Except FileFault Unit)) s with
          | (.error fault, s) => some (.error (.emit output.file fault), s)
          | (.ok (), s) =>
            some (.ok { path := output.file, size := Text.byteLength text.toList },
              Steady.after s
                (.tell (.written output.file (Text.byteLength text.toList)))) := by
  have hfinish : (ExceptT.mk (pure (output.finish format bundle)) :
      ExceptT Error (Run σ) String).run s = some (output.finish format bundle, s) := rfl
  have hmake : (FileStore.makeDirectory output.directory :
      ExceptT Error (Run σ) (Except FileFault Unit)).run s =
        some (.ok ((FileStore.makeDirectory output.directory : StateM σ (Except FileFault Unit)) s).1,
          ((FileStore.makeDirectory output.directory : StateM σ (Except FileFault Unit)) s).2) := rfl
  have hwrite (text : String) (s : σ) : (FileStore.write output.file text :
      ExceptT Error (Run σ) (Except FileFault Unit)).run s =
        some (.ok ((FileStore.write output.file text : StateM σ (Except FileFault Unit)) s).1,
          ((FileStore.write output.file text : StateM σ (Except FileFault Unit)) s).2) := rfl
  unfold emit
  rw [run_bind, hfinish]
  cases output.finish format bundle with
  | error error => rfl
  | ok text =>
    dsimp only
    rw [run_bind, hmake]
    obtain ⟨fault | ⟨⟨⟩⟩, made⟩ :=
      (FileStore.makeDirectory output.directory : StateM σ (Except FileFault Unit)) s
    · rfl
    · dsimp only
      rw [run_bind, hwrite]
      obtain ⟨fault | ⟨⟨⟩⟩, written⟩ :=
        (FileStore.write output.file text : StateM σ (Except FileFault Unit)) made
      · rfl
      · dsimp only
        rw [run_bind, run_report]
        rfl

/-- A build whose search ends makes the bundle of its plan from what was found, and puts it into its
    file. -/
theorem Plan.build_of_discovers (plan : Plan) {transform : Transformer} (format : Formatter) {s : σ}
    {found : Except Error Graph} {looks : List Look}
    (h : (View.of s).Discovers transform ⟨plan.extensions⟩ plan.entry found looks) :
    let looked := (plan.assembledLooks found looks).foldl Steady.after s
    let ended : Option (Except Error Receipt × σ) :=
      match plan.assembled found with
      | .error error => some (.error error, looked)
      | .ok bundled =>
        match (plan.output.emit format bundled.text : ExceptT Error (Run σ) OutputFile).run
          looked with
        | some (.error error, s) => some (.error error, s)
        | some (.ok output, s) =>
          some (.ok (bundled.receipt output),
            Steady.after s (.tell (.bundled bundled.graph.size output.path ⟨0⟩)))
        | none => none
    (plan.build transform.told format : Run σ (Except Error Receipt)) s =
      ended.map fun ended => (ended.1, Steady.after ended.2 (.tell (.completed "Build" ⟨0⟩))) := by
  have hfind (s' : σ) (hs' : View.of s' = View.of s) :
      (ExceptT.mk (discover transform.told ⟨plan.extensions⟩ plan.entry) :
        ExceptT Error (Run σ) Graph).run s' = some (found, looks.foldl Steady.after s') :=
    runs_discover h s' hs'
  have hgenerate (graph : Graph) (entry : String) (s : σ) :
      (ExceptT.mk (pure (Bundle.generate graph entry plan.strictCycles)) :
        ExceptT Error (Run σ) String).run s =
          some (Bundle.generate graph entry plan.strictCycles, s) :=
    rfl
  have helapsed (s : σ) :
      (elapsedSince ⟨0⟩ : ExceptT Error (Run σ) Duration).run s = some (.ok ⟨0⟩, s) := by
    have hsilent : Runs (View.of s) (elapsedSince ⟨0⟩ : ExceptT Error (Run σ) Duration).run
        (.ok ⟨0⟩) [] := Runs.now.lift.andThen (Runs.pure _)
    exact hsilent s rfl
  intro looked ended
  unfold build
  rw [timed_eq]
  refine congrArg (Option.map fun ended : Except Error Receipt × σ =>
    (ended.1, Steady.after ended.2 (.tell (.completed "Build" ⟨0⟩)))) (?_ : _ = ended)
  simp only [run_bind, run_report]
  -- What was told so far can not be seen.
  rw [hfind _ (by simp only [Steady.view_after])]
  unfold ended looked assembledLooks assembled
  rw [List.foldl_append, List.foldl_append]
  cases found with
  | error error => rfl
  | ok graph =>
    dsimp only
    cases hentry : graph.entry? with
    | none => rfl
    | some entry =>
      dsimp only
      rw [run_bind, hgenerate]
      cases htext : Bundle.generate graph entry plan.strictCycles with
      | error error => rfl
      | ok text =>
        simp only [Except.map, run_bind, run_report, helapsed, List.foldl_cons, List.foldl_nil]
        generalize (plan.output.emit format text : ExceptT Error (Run σ) OutputFile).run _ =
          emitted
        obtain _ | ⟨error | output, s⟩ := emitted
        · rfl
        · rfl
        · rfl

end

end Bundler

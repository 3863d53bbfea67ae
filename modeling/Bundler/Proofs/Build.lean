import Bundler.Proofs.Build.Course
import Bundler.Proofs.FileStore.Memory
import Bundler.Proofs.Graph.Failure
import Bundler.Proofs.Graph.Termination

/-!
# What a build leaves behind

A build looks at files until its bundle is complete, then makes one directory and writes one
file. So a build that fails before that, or at that, leaves all files as they are, and one that
succeeds changes the file of the bundle alone.

* `View.Discovers.asks`: finding a graph only asks;
* `Output.emit_memory`: what putting a bundle into its file does in memory;
* `Plan.Outcome`, `Plan.outcome`: how a build in memory may end;
* `Plan.build_memory`: what it leaves behind.
-/

namespace Bundler

/-! ### Looking -/

namespace View

variable (v : View) (transform : Transformer) (locator : Locator)

theorem probes_asks (paths : List String) : ∀ look ∈ v.probes paths, look.Asks := by
  induction paths with
  | nil => exact nofun
  | cons path paths ih =>
    intro look hlook
    rw [probes] at hlook
    rcases List.mem_cons.1 hlook with rfl | hlook
    · exact .inl rfl
    · split at hlook
      · cases hlook
      · exact ih look hlook

theorem targetsLooks_asks (id : String) (specifiers : List String) :
    ∀ look ∈ v.targetsLooks locator id specifiers, look.Asks := by
  induction specifiers with
  | nil => exact nofun
  | cons specifier specifiers ih =>
    intro look hlook
    rw [targetsLooks] at hlook
    rcases List.mem_append.1 hlook with hlook | hlook
    · unfold targetLooks at hlook
      split at hlook
      · cases hlook
      · exact probes_asks v _ look hlook
    · split at hlook
      · cases hlook
      · rcases List.mem_cons.1 hlook with rfl | hlook
        · trivial
        · exact ih look hlook

theorem visitLooks_asks (id : String) : ∀ look ∈ v.visitLooks transform locator id, look.Asks := by
  intro look hlook
  rw [visitLooks] at hlook
  rcases List.mem_cons.1 hlook with rfl | hlook
  · trivial
  rcases List.mem_cons.1 hlook with rfl | hlook
  · exact .inr rfl
  split at hlook
  · cases hlook
  rcases List.mem_append.1 hlook with hlook | hlook
  · simp only [List.mem_cons, List.not_mem_nil, or_false] at hlook
    rcases hlook with rfl | rfl
    · trivial
    · trivial
  · split at hlook
    · cases hlook
    · exact targetsLooks_asks v locator id _ look hlook

variable {v transform locator}

theorem Searches.asks {now : Search} {result : Except Error Graph} {looks : List Look}
    (h : v.Searches transform locator now result looks) : ∀ look ∈ looks, look.Asks := by
  induction h with
  | done => exact nofun
  | fail => exact visitLooks_asks v transform locator _
  | visit _ _ _ ih => exact List.forall_mem_append.2 ⟨visitLooks_asks v transform locator _, ih⟩

theorem closing_asks (result : Except Error Graph) : ∀ look ∈ closing result, look.Asks := by
  cases result with
  | ok => exact List.forall_mem_singleton.2 trivial
  | error => exact nofun

theorem discoverLooks_asks {path : String} {looks : List Look} (h : ∀ look ∈ looks, look.Asks) :
    ∀ look ∈ v.discoverLooks locator path looks, look.Asks :=
  List.forall_mem_append.2 ⟨List.forall_mem_cons.2 ⟨trivial,
    List.forall_mem_append.2 ⟨probes_asks v _, h⟩⟩, List.forall_mem_singleton.2 trivial⟩

/-- To find a graph, a store is only asked. -/
theorem Discovers.asks {path : String} {result : Except Error Graph} {looks : List Look}
    (h : v.Discovers transform locator path result looks) : ∀ look ∈ looks, look.Asks := by
  cases h with
  | noEntry => exact discoverLooks_asks nofun
  | found _ h => exact discoverLooks_asks (List.forall_mem_append.2 ⟨h.asks, closing_asks _⟩)

end View

/-! ### Emission -/

/-- Files in memory after the directory of a bundle was asked for, and then its file. -/
def Output.noted (output : Output) (memory : Memory) : Memory :=
  (memory.note .makeDirectory output.directory).note .write output.file

/-- A bundle that can be laid out is put into its file, unless its directory or its file is
    refused. -/
theorem Output.emit_memory (output : Output) (format : Formatter) (bundle : String)
    (memory : Memory) :
    (output.emit format bundle : ExceptT Error (Run Memory) OutputFile).run memory =
      match output.finish format bundle with
      | .error error => some (.error error, memory)
      | .ok text =>
        if memory.refusedDirectories.contains output.directory then
          some (.error (.emit output.directory (.refused .makeDirectory output.directory)),
            memory.note .makeDirectory output.directory)
        else if memory.refusedWrites.contains output.file then
          some (.error (.emit output.file (.refused .write output.file)), output.noted memory)
        else
          some (.ok { path := output.file, size := Text.byteLength text.toList },
            (output.noted memory).put output.file text) := by
  rw [run_emit]
  cases output.finish format bundle with
  | error error => rfl
  | ok text =>
    -- The first call leaves as it is which files are refused, so what is refused of the second one
    -- can be told from the memory at the start.
    have hmake : (FileStore.makeDirectory output.directory : StateM Memory (Except FileFault Unit))
        memory = (memory.directoryResult output.directory,
          memory.note .makeDirectory output.directory) := rfl
    have hwrite : (FileStore.write output.file text : StateM Memory (Except FileFault Unit))
        (memory.note .makeDirectory output.directory) =
          if memory.refusedWrites.contains output.file then
            (.error (.refused .write output.file), output.noted memory)
          else (.ok (), (output.noted memory).put output.file text) := rfl
    dsimp only
    rw [hmake]
    unfold Memory.directoryResult
    by_cases hdirectory : memory.refusedDirectories.contains output.directory = true
    · rw [if_pos hdirectory, if_pos hdirectory]
    · rw [if_neg hdirectory, if_neg hdirectory]
      dsimp only
      rw [hwrite]
      by_cases hfile : memory.refusedWrites.contains output.file = true
      · rw [if_pos hfile, if_pos hfile]
      · rw [if_neg hfile, if_neg hfile]
        rfl

/-! ### Builds -/

/-- How a build may end that starts with files in memory: with what result, and with what files
    and calls. -/
inductive Plan.Outcome (plan : Plan) (transform : Transformer) (format : Formatter)
    (memory : Memory) : Except Error Receipt → Memory → Prop where
  /-- There is no bundle. -/
  | failed {error : Error} {looks : List Look} (hasks : ∀ look ∈ looks, look.Asks)
    (hkind : ∀ path fault, error ≠ .emit path fault) :
    Outcome plan transform format memory (.error error) (looks.foldl Steady.after memory)
  /-- The directory is refused. -/
  | noDirectory {looks : List Look} (hasks : ∀ look ∈ looks, look.Asks)
    (hrefused : plan.output.directory ∈ memory.refusedDirectories) :
    Outcome plan transform format memory
      (.error (.emit plan.output.directory (.refused .makeDirectory plan.output.directory)))
      ((looks.foldl Steady.after memory).note .makeDirectory plan.output.directory)
  /-- The file is refused. -/
  | noFile {looks : List Look} (hasks : ∀ look ∈ looks, look.Asks)
    (hrefused : plan.output.file ∈ memory.refusedWrites) :
    Outcome plan transform format memory
      (.error (.emit plan.output.file (.refused .write plan.output.file)))
      (plan.output.noted (looks.foldl Steady.after memory))
  /-- The bundle is in its file. -/
  | written {looks : List Look} {graph : Graph} {searched : Memory} {entry bundle text : String}
    (hasks : ∀ look ∈ looks, look.Asks)
    (hgraph : (discover transform.told ⟨plan.extensions⟩ plan.entry :
      Run Memory (Except Error Graph)) memory = some (.ok graph, searched))
    (hentry : graph.entry? = some entry)
    (hbundle : Bundle.generate graph entry plan.strictCycles = .ok bundle)
    (htext : plan.output.finish format bundle = .ok text) :
    Outcome plan transform format memory
      (.ok {
        entry
        modules := graph.size
        output := { path := plan.output.file, size := Text.byteLength text.toList }
        time := ⟨0⟩ })
      ((plan.output.noted (looks.foldl Steady.after memory)).put plan.output.file text)

theorem Plan.assembledLooks_asks (plan : Plan) (found : Except Error Graph) {looks : List Look}
    (h : ∀ look ∈ looks, look.Asks) : ∀ look ∈ plan.assembledLooks found looks, look.Asks := by
  intro look hlook
  rcases List.mem_append.1 hlook with hlook | hlook
  · rcases List.mem_append.1 hlook with hlook | hlook
    · simp only [List.mem_cons, List.not_mem_nil, or_false] at hlook
      rcases hlook with rfl | rfl | rfl | rfl <;> trivial
    · exact h look hlook
  · split at hlook
    · cases hlook
    · obtain rfl := List.mem_singleton.1 hlook
      trivial

/-- A failed search is not about putting a bundle into its file. -/
theorem View.Failure.ne_emit {v : View} {transform : Transformer} {locator : Locator}
    {path : String} {error : Error} {files : List String}
    (h : v.Failure transform locator path error files) (other : String) (fault : FileFault) :
    error ≠ .emit other fault := by
  cases h with
  | noEntry => exact nofun
  | module _ _ _ hbad =>
    obtain ⟨_, _, _, rfl⟩ | ⟨_, _, rfl⟩ := hbad.kind
    · exact nofun
    · exact nofun

/-- Nor is any other fault of a bundle. -/
theorem Plan.assembled_ne_emit {plan : Plan} {transform : Transformer} {v : View}
    {found : Except Error Graph} {looks : List Look}
    (h : v.Discovers transform ⟨plan.extensions⟩ plan.entry found looks) {error : Error}
    (herror : plan.assembled found = .error error) (path : String) (fault : FileFault) :
    error ≠ .emit path fault := by
  obtain rfl | ⟨cause, rfl⟩ := assembled_eq_error herror
  · exact h.failure.ne_emit path fault
  · exact nofun

theorem Output.finish_eq_ok {output : Output} {format : Formatter} {bundle text : String} :
    output.finish format bundle = .ok text ↔
      if output.format then format bundle = .ok text else text = bundle := by
  unfold finish
  split
  · cases format bundle with
    | error cause => exact iff_of_false (by rintro ⟨⟩) (by rintro ⟨⟩)
    | ok told =>
      exact ⟨fun h => congrArg Except.ok (Except.ok.inj h),
        fun h => congrArg Except.ok (Except.ok.inj h)⟩
  · simp [eq_comm]

theorem Output.finish_ne_emit {output : Output} {format : Formatter} {bundle : String}
    {error : Error} (h : output.finish format bundle = .error error) (path : String)
    (fault : FileFault) : error ≠ .emit path fault := by
  unfold finish at h
  split at h
  · cases hformat : format bundle with
    | error cause =>
      rw [hformat] at h
      cases h
      exact nofun
    | ok text =>
      rw [hformat] at h
      cases h
  · cases h

/-- A build that starts with files in memory ends, and in one of these ways. -/
theorem Plan.outcome (plan : Plan) (transform : Transformer) (format : Formatter)
    (memory : Memory) :
    ∃ result after,
      (plan.build transform.told format : Run Memory (Except Error Receipt)) memory =
        some (result, after) ∧
      plan.Outcome transform format memory result after := by
  obtain ⟨found, searchLooks, hdiscovers⟩ :=
    memory.hasFiles.exists_discovers transform ⟨plan.extensions⟩ plan.entry
  have hasks : ∀ look ∈ plan.assembledLooks found searchLooks, look.Asks :=
    plan.assembledLooks_asks found hdiscovers.asks
  rw [plan.build_of_discovers format hdiscovers]
  -- What was looked at does not matter any more, but that all of it was looking.
  generalize plan.assembledLooks found searchLooks = looks at hasks
  cases hassembled : plan.assembled found with
  | error error => exact ⟨_, _, rfl, .failed hasks (assembled_ne_emit hdiscovers hassembled)⟩
  | ok bundled =>
    obtain ⟨rfl, hentry, hbundle⟩ := assembled_eq_ok hassembled
    have hgraph := runs_discover hdiscovers memory rfl
    dsimp only
    rw [Output.emit_memory]
    cases htext : plan.output.finish format bundled.text with
    | error error => exact ⟨_, _, rfl, .failed hasks (Output.finish_ne_emit htext)⟩
    | ok text =>
      dsimp only
      -- Looking changes nothing but the journal.
      have hrefusals : (looks.foldl Steady.after memory).refusedDirectories =
          memory.refusedDirectories ∧
          (looks.foldl Steady.after memory).refusedWrites = memory.refusedWrites := by
        rw [Memory.foldl_after]
        exact ⟨rfl, rfl⟩
      rw [hrefusals.1, hrefusals.2]
      by_cases hdirectory : memory.refusedDirectories.contains plan.output.directory = true
      · rw [if_pos hdirectory]
        exact ⟨_, _, rfl, .noDirectory hasks (List.contains_iff_mem.1 hdirectory)⟩
      rw [if_neg hdirectory]
      by_cases hfile : memory.refusedWrites.contains plan.output.file = true
      · rw [if_pos hfile]
        exact ⟨_, _, rfl, .noFile hasks (List.contains_iff_mem.1 hfile)⟩
      · rw [if_neg hfile]
        exact ⟨_, _, rfl, .written hasks hgraph hentry hbundle htext⟩

/-- What a build that starts with files in memory leaves behind. It ends. If it fails before it puts
    its bundle into a file, it has only looked. If it fails at that, the last call is the one that was
    refused, and the error names its path. If it succeeds, its last two calls have made the
    directory and written the file of the bundle, and no other file has changed. -/
theorem Plan.build_memory (plan : Plan) (transform : Transformer) (format : Formatter)
    (memory : Memory) :
    ∃ (result : Except Error Receipt) (after : Memory) (calls : List (Access × String)),
      (plan.build transform.told format : Run Memory (Except Error Receipt)) memory =
        some (result, after) ∧
      (∀ call ∈ calls, call.1 = .isFile ∨ call.1 = .read) ∧
      (∀ error, result = .error error → (∀ path fault, error ≠ .emit path fault) →
        after.files = memory.files ∧ after.journal = calls.reverse ++ memory.journal) ∧
      (∀ path fault, result = .error (.emit path fault) →
        after.files = memory.files ∧
        (path = plan.output.directory ∧ path ∈ memory.refusedDirectories ∧
            fault = .refused .makeDirectory path ∧
            after.journal = (.makeDirectory, path) :: (calls.reverse ++ memory.journal) ∨
          path = plan.output.file ∧ path ∈ memory.refusedWrites ∧ fault = .refused .write path ∧
            after.journal = (.write, path) :: (.makeDirectory, plan.output.directory) ::
              (calls.reverse ++ memory.journal))) ∧
      ∀ receipt, result = .ok receipt →
        after.journal = (.write, plan.output.file) ::
          (.makeDirectory, plan.output.directory) :: (calls.reverse ++ memory.journal) ∧
        ∃ graph searched bundle text,
          (discover transform.told ⟨plan.extensions⟩ plan.entry :
            Run Memory (Except Error Graph)) memory = some (.ok graph, searched) ∧
          graph.entry? = some receipt.entry ∧ receipt.modules = graph.size ∧
          Bundle.generate graph receipt.entry plan.strictCycles = .ok bundle ∧
          (if plan.output.format then format bundle = .ok text else text = bundle) ∧
          receipt.output = { path := plan.output.file, size := Text.byteLength text.toList } ∧
          ∀ path, after.text? path =
            if path = plan.output.file then some text else memory.text? path := by
  obtain ⟨result, after, hended, houtcome⟩ := plan.outcome transform format memory
  refine ⟨result, after, ?_⟩
  rw [hended]
  -- There are four ways to end. The first of them has only looked.
  cases houtcome with
  | @failed error looks hasks hkind =>
    refine ⟨Look.calls looks, rfl, Look.calls_asks hasks, ?_, ?_, nofun⟩
    · intro _ _ _
      rw [Memory.foldl_after]
      exact ⟨rfl, rfl⟩
    · intro path fault h
      exact absurd (Except.error.inj h) (hkind path fault)
  | @noDirectory looks hasks hrefused =>
    refine ⟨Look.calls looks, rfl, Look.calls_asks hasks, ?_, ?_, nofun⟩
    · intro error h hkind
      exact absurd (Except.error.inj h).symm (hkind _ _)
    · intro path fault h
      cases h
      rw [Memory.foldl_after]
      exact ⟨rfl, .inl ⟨rfl, hrefused, rfl, rfl⟩⟩
  | @noFile looks hasks hrefused =>
    refine ⟨Look.calls looks, rfl, Look.calls_asks hasks, ?_, ?_, nofun⟩
    · intro error h hkind
      exact absurd (Except.error.inj h).symm (hkind _ _)
    · intro path fault h
      cases h
      rw [Memory.foldl_after]
      exact ⟨rfl, .inr ⟨rfl, hrefused, rfl, rfl⟩⟩
  | @written looks graph searched entry bundle text hasks hgraph hentry hbundle htext =>
    refine ⟨Look.calls looks, rfl, Look.calls_asks hasks, nofun, nofun, ?_⟩
    intro receipt h
    cases h
    rw [Memory.foldl_after]
    refine ⟨?_, graph, searched, bundle, text, hgraph, hentry, rfl, hbundle, ?_, rfl,
      fun path => ?_⟩
    · exact Memory.journal_put _ _ _
    · exact Output.finish_eq_ok.1 htext
    · exact Memory.text?_put _ _ _ _

end Bundler

import Bundler.Proofs.Build.Course
import Bundler.Proofs.FileStore.Tree
import Bundler.Proofs.Graph.Termination

/-!
# What commands do

A command asks for one file to be written, or for none, as far as can be seen of the tree in which it
is carried out. It reads its settings and makes the bundle by looking alone, and then the file is
written, in a directory that is made before.

* `Work`: a file that is to be written, and `Command.work`: the one that a command asks for;
* `Session.Silent`: nothing was done that could be seen afterwards;
* `OnlyLooks`: actions that look and do nothing else;
* `Ended`: how an action ends that is to do some work;
* `Command.ended`: so ends every command.
-/

namespace Bundler

/-! ### Work -/

/-- A file that is to be written, with the directory that is made before. -/
structure Work where
  /-- The directory. -/
  directory : String
  /-- The path of the file. -/
  path : String
  /-- The whole text of the file. -/
  text : String

/-- Makes the directory and writes the file. -/
def Tree.deliver (tree : Tree) (process : Process) (work : Work) : Except FileFault Unit × Tree :=
  match tree.makeDirectories process work.directory with
  | (.error fault, tree) => (.error fault, tree)
  | (.ok (), tree) => tree.writeFile process work.path work.text

theorem Tree.extends_deliver {process : Process} {tree after : Tree} {work : Work}
    {fault : FileFault} (h : tree.deliver process work = (.error fault, after)) :
    tree.Extends after := by
  have hmade := tree.extends_makeDirectories process work.directory
  unfold deliver at h
  split at h
  next hfail =>
    cases h
    rwa [hfail] at hmade
  next made hdone =>
    rw [hdone] at hmade
    exact hmade.trans (extends_writeFile h)

/-- The settings in the file at `path`. -/
def View.load (v : View) (path : String) : Except Error LoadedSettings :=
  match v.read path with
  | .error fault => .error (.config (.unreadable path fault))
  | .ok text =>
    match Settings.parse? text with
    | none => .error (.config (.malformed path))
    | some settings => .ok { settings, directory := (Path.parent? path).getD "" }

/-- The path of the configuration in the current directory. -/
def configPath : String :=
  Path.join "." configFileName

/-- The settings in the file that is named, or else in the configuration in the current directory,
    if it is there. -/
def View.settings (v : View) : Option String → Except Error (Option LoadedSettings)
  | some path => (v.load path).map some
  | none => if v.isFile configPath then (v.load configPath).map some else .ok none

/-- The plan of a command that builds. -/
def View.plan (v : View) (config : Option String) (overrides : Overrides) : Except Error Plan := do
  let settings ← v.settings config
  Config.merge settings overrides

/-- The file of a bundle. -/
def Output.work (output : Output) (format : Formatter) (bundle : String) : Except Error Work :=
  (output.finish format bundle).map fun text =>
    { directory := output.directory, path := output.file, text }

/-- The file of the bundle that a plan asks for, made from what came of the search for its graph. -/
def Plan.work (plan : Plan) (format : Formatter) (found : Except Error Graph) :
    Except Error Work := do
  let bundled ← plan.assembled found
  plan.output.work format bundled.text

/-- The file that a command asks for, or why there is none to write. -/
def Command.work (transform : Transformer) (format : Formatter) (session : Session) :
    Command → Option (Except Error Work)
  | .build config overrides =>
    match (View.of session).plan config overrides with
    | .error error => some (.error error)
    | .ok plan =>
      ((discover transform.told ⟨plan.extensions⟩ plan.entry : Run Session (Except Error Graph))
        session).map fun ended => plan.work format ended.1
  | .init force =>
    some <|
      if session.tree.isTaken session.process configPath && !force then
        .error (.config (.occupied configPath))
      else .ok { directory := ".", path := configPath, text := Settings.sample }

/-- The path of the file that a command may write. -/
def Command.target (session : Session) : Command → Except Error String
  | .build config overrides =>
    ((View.of session).plan config overrides).map fun plan => plan.output.file
  | .init _ => .ok configPath

namespace Tree

variable {process : Process} {tree after : Tree} {place : Place} {text : String}

/-- To write the configuration, no directory is made. -/
theorem deliver_configPath (process : Process) (tree : Tree) (text : String) :
    tree.deliver process ⟨".", configPath, text⟩ = tree.writeFile process configPath text := by
  have hparent : (Path.parent? configPath).getD "" = "." := by decide
  have hhere := tree.makeDirectories_here process
  unfold deliver writeFile
  dsimp only
  rw [hparent]
  rcases hmade : tree.makeDirectories process "." with ⟨fault | ⟨⟨⟩⟩, made⟩
  · rfl
  · obtain rfl : made = tree := by rw [← hhere, hmade]
    dsimp only
    rw [hmade]

/-- A configuration that cannot be written leaves the tree as it is. -/
theorem writeFile_configPath_eq_error {fault : FileFault}
    (h : tree.writeFile process configPath text = (.error fault, after)) : after = tree := by
  have hparent : (Path.parent? configPath).getD "" = "." := by decide
  rw [writeFile_eq_error h, hparent, makeDirectories_here]

end Tree

/-! ### Sessions -/

namespace Session

/-- Nothing was done but to show lines and tell events. -/
structure Silent (before after : Session) : Prop where
  /-- The files and directories are as they were. -/
  tree : after.tree = before.tree
  /-- The program runs where it ran, and is refused what it was refused. -/
  process : after.process = before.process
  /-- No failure was told. -/
  complaints : after.complaints = before.complaints

theorem Silent.refl (session : Session) : session.Silent session :=
  ⟨rfl, rfl, rfl⟩

theorem Silent.trans {before made after : Session} (h : before.Silent made)
    (h' : made.Silent after) : before.Silent after :=
  ⟨h'.tree.trans h.tree, h'.process.trans h.process, h'.complaints.trans h.complaints⟩

/-- What can be seen of a session is what a process can see of its tree. -/
theorem Silent.view {before after : Session} (h : before.Silent after) :
    View.of after = View.of before := by
  have hview (session : Session) : View.of session =
      ⟨session.tree.isFile session.process, session.tree.textAt session.process⟩ := rfl
  rw [hview, hview, h.tree, h.process]

theorem silent_after (session : Session) (look : Look) :
    session.Silent (Steady.after session look) := by
  cases look with
  | call => exact .refl session
  | tell event =>
    show session.Silent (if session.filter.allows event.level then _ else _)
    split
    · exact ⟨rfl, rfl, rfl⟩
    · exact .refl session

theorem silent_foldl_after (session : Session) (looks : List Look) :
    session.Silent (looks.foldl Steady.after session) := by
  induction looks generalizing session with
  | nil => exact .refl session
  | cons look looks ih => exact (silent_after session look).trans (ih _)

theorem makeDirectory_eq (path : String) (session : Session) :
    (FileStore.makeDirectory path : StateM Session (Except FileFault Unit)) session =
      ((session.tree.makeDirectories session.process path).1,
        { session with tree := (session.tree.makeDirectories session.process path).2 }) := by
  cases h : session.tree.makeDirectories session.process path
  simp only [FileStore.makeDirectory, h]

theorem write_eq (path text : String) (session : Session) :
    (FileStore.write path text : StateM Session (Except FileFault Unit)) session =
      ((session.tree.writeFile session.process path text).1,
        { session with tree := (session.tree.writeFile session.process path text).2 }) := by
  cases h : session.tree.writeFile session.process path text
  simp only [FileStore.write, h]

/-- Lines are shown one after another. -/
theorem run_print (lines : List String) (session : Session) :
    (lines.forM Console.print : ExceptT Error (Run Session) Unit).run session =
      some (.ok (), { session with shown := session.shown ++ lines }) := by
  induction lines generalizing session with
  | nil => rw [List.append_nil]; rfl
  | cons line lines ih =>
    have hline : (Console.print line : ExceptT Error (Run Session) Unit).run session =
      some (.ok (), { session with shown := session.shown ++ [line] }) := rfl
    rw [List.forM, run_bind, hline]
    dsimp only
    rw [ih, List.append_assoc]
    rfl

end Session

/-- How an action ends that is to do some work, if there is any to do. -/
inductive Ended {α : Type} (before : Session) (work : Except Error Work) :
    Except Error α → Session → Prop where
  /-- There is none. -/
  | idle {error : Error} {after : Session} (hwork : work = .error error)
    (hsilent : before.Silent after) : Ended before work (.error error) after
  /-- The work is done. -/
  | done {w : Work} {a : α} {after : Session} (hwork : work = .ok w)
    (hdeliver : before.tree.deliver before.process w = (.ok (), after.tree))
    (hcomplaints : after.complaints = before.complaints) : Ended before work (.ok a) after
  /-- The work cannot be done, and directories may have been made only if it was to put out a
      bundle. -/
  | failed {w : Work} {fault : FileFault} {error : Error} {after : Session} (hwork : work = .ok w)
    (hdeliver : before.tree.deliver before.process w = (.error fault, after.tree))
    (hcomplaints : after.complaints = before.complaints)
    (herror : after.tree = before.tree ∨ ∃ path, error = .emit path fault) :
    Ended before work (.error error) after

namespace Ended

variable {α β : Type} {before made after : Session} {work : Except Error Work}
  {result : Except Error α}

/-- An action before which nothing was done. -/
theorem before_silent (h : before.Silent made) (hended : Ended made work result after) :
    Ended before work result after := by
  cases hended with
  | idle hwork hsilent => exact .idle hwork (h.trans hsilent)
  | done hwork hdeliver hcomplaints =>
    exact .done hwork (h.tree ▸ h.process ▸ hdeliver) (hcomplaints.trans h.complaints)
  | failed hwork hdeliver hcomplaints herror =>
    exact .failed hwork (h.tree ▸ h.process ▸ hdeliver) (hcomplaints.trans h.complaints)
      (h.tree ▸ herror)

/-- An action after which nothing is done. -/
theorem after_silent (hended : Ended before work result made) (h : made.Silent after) :
    Ended before work result after := by
  cases hended with
  | idle hwork hsilent => exact .idle hwork (hsilent.trans h)
  | done hwork hdeliver hcomplaints =>
    exact .done hwork (h.tree ▸ hdeliver) (h.complaints.trans hcomplaints)
  | failed hwork hdeliver hcomplaints herror =>
    exact .failed hwork (h.tree ▸ hdeliver) (h.complaints.trans hcomplaints) (h.tree ▸ herror)

/-- An action whose result is changed. -/
theorem map (h : Ended before work result after) (f : α → β) :
    Ended before work (result.map f) after := by
  cases h with
  | idle hwork hsilent => exact .idle hwork hsilent
  | done hwork hdeliver hcomplaints => exact .done hwork hdeliver hcomplaints
  | failed hwork hdeliver hcomplaints herror => exact .failed hwork hdeliver hcomplaints herror

/-- No action tells of a failure by itself. -/
theorem complaints (h : Ended before work result after) :
    after.complaints = before.complaints := by
  cases h with
  | idle _ hsilent => exact hsilent.complaints
  | done _ _ hcomplaints => exact hcomplaints
  | failed _ _ hcomplaints => exact hcomplaints

variable {error : Error}

/-- An action that fails touches no file. -/
theorem kept (h : @Ended α before work (.error error) after) :
    before.tree.Extends after.tree := by
  cases h with
  | idle _ hsilent => exact hsilent.tree ▸ .refl before.tree
  | failed _ hdeliver => exact Tree.extends_deliver hdeliver

end Ended

/-! ### Commands -/

section

variable {m : Type → Type} [Monad m] [FileStore m] [Reporter m] [MonadIter m] [Console m]

/-- Reads the settings that a build starts from. -/
def Config.settings : Option String → ExceptT Error m (Option LoadedSettings)
  | some path => some <$> load path
  | none => find "."

/-- Makes the bundle that settings and the command line ask for. -/
def Command.performLoaded (transform : Transform m) (format : Formatter) (overrides : Overrides)
    (loaded : Option LoadedSettings) : ExceptT Error m Unit := do
  let plan ← ExceptT.mk (pure (Config.merge loaded overrides))
  banner.forM Console.print
  let receipt ← ExceptT.mk (plan.build transform format)
  receipt.summary.forM Console.print

/-- A build is the one and then the other. -/
theorem Command.performBuild_eq (transform : Transform m) (format : Formatter)
    (config : Option String) (overrides : Overrides) :
    (performBuild transform format config overrides : ExceptT Error m Unit) =
      Config.settings config >>= performLoaded transform format overrides := by
  cases config <;> rfl

end

section

variable {σ : Type} [FileStore (StateM σ)] [Reporter (StateM σ)] [Steady σ]

/-- An action that gives `result` in every store that looks like `v`, and only looks. -/
def OnlyLooks {α ε : Type} (v : View) (act : ExceptT ε (Run σ) α) (result : Except ε α) : Prop :=
  ∃ looks, Runs v act.run result looks

namespace OnlyLooks

variable {α β ε : Type} {v : View}

theorem of_runs {act : ExceptT ε (Run σ) α} {result : Except ε α} {looks : List Look}
    (h : Runs v act.run result looks) : OnlyLooks v act result :=
  ⟨looks, h⟩

theorem andThen {act : ExceptT ε (Run σ) α} {next : α → ExceptT ε (Run σ) β} {a : α}
    {result : Except ε β} (h : OnlyLooks v act (.ok a)) (hn : OnlyLooks v (next a) result) :
    OnlyLooks v (act >>= next) result :=
  let ⟨_, h⟩ := h
  let ⟨_, hn⟩ := hn
  ⟨_, h.andThen hn⟩

theorem map {act : ExceptT ε (Run σ) α} {result : Except ε α} (h : OnlyLooks v act result)
    (f : α → β) : OnlyLooks v (f <$> act) (result.map f) := by
  obtain ⟨looks, h⟩ := h
  cases result with
  | error error => exact ⟨_, h.orFail fun a => pure (f a)⟩
  | ok a => exact ⟨_, h.andThen (Runs.pure (Except.ok (f a)))⟩

end OnlyLooks

/-- Settings are read from what can be seen. -/
theorem onlyLooks_load (v : View) (path : String) :
    OnlyLooks v (Config.load path : ExceptT Error (Run σ) LoadedSettings) (v.load path) := by
  unfold Config.load View.load
  refine OnlyLooks.andThen (.of_runs (Runs.report _).lift)
    (OnlyLooks.andThen (.of_runs (Runs.read path).lift) ?_)
  cases v.read path with
  | error fault => exact .of_runs (Runs.pure _)
  | ok text =>
    dsimp only
    cases Settings.parse? text with
    | none => exact .of_runs (Runs.pure _)
    | some settings => exact .andThen (.of_runs (Runs.report _).lift) (.of_runs (Runs.pure _))

/-- So are those that a build starts from. -/
theorem onlyLooks_settings (v : View) (config : Option String) :
    OnlyLooks v (Config.settings config : ExceptT Error (Run σ) (Option LoadedSettings))
      (v.settings config) := by
  unfold Config.settings View.settings
  cases config with
  | some path => exact (onlyLooks_load v path).map some
  | none =>
    unfold Config.find
    refine OnlyLooks.andThen (.of_runs (Runs.isFile configPath).lift) ?_
    cases v.isFile configPath with
    | false => exact .andThen (.of_runs (Runs.report _).lift) (.of_runs (Runs.pure _))
    | true => exact (onlyLooks_load v configPath).map some

end

/-- An action that only looks ends, and does nothing else in a session. -/
theorem OnlyLooks.session {α ε : Type} {act : ExceptT ε (Run Session) α} {result : Except ε α}
    {session : Session} (h : OnlyLooks (View.of session) act result) :
    ∃ after, act.run session = some (result, after) ∧ session.Silent after :=
  let ⟨looks, h⟩ := h
  ⟨_, h session rfl, session.silent_foldl_after looks⟩

/-- A bundle is put out as far as it can be laid out and the tree lets it. -/
theorem Output.ended_emit (output : Output) (format : Formatter) (bundle : String)
    (session : Session) :
    ∃ result after,
      (output.emit format bundle : ExceptT Error (Run Session) OutputFile).run session =
        some (result, after) ∧
      Ended session (output.work format bundle) result after := by
  rw [run_emit]
  unfold work
  cases output.finish format bundle with
  | error error => exact ⟨_, _, rfl, .idle rfl (.refl session)⟩
  | ok text =>
    dsimp only
    rw [Session.makeDirectory_eq]
    rcases hmade : session.tree.makeDirectories session.process output.directory with
      ⟨fault | ⟨⟨⟩⟩, made⟩
    · exact ⟨_, _, rfl, .failed rfl (by simp only [Tree.deliver, hmade]) rfl (.inr ⟨_, rfl⟩)⟩
    · dsimp only
      rw [Session.write_eq]
      rcases hwritten : made.writeFile session.process output.file text with
        ⟨fault | ⟨⟨⟩⟩, written⟩
      · exact ⟨_, _, rfl,
          .failed rfl (by simp only [Tree.deliver, hmade, hwritten]) rfl (.inr ⟨_, rfl⟩)⟩
      · have hdone : Ended session (.ok ⟨output.directory, output.file, text⟩)
            (.ok (⟨output.file, Text.byteLength text.toList⟩ : OutputFile))
            { session with tree := written } :=
          .done rfl (by simp only [Tree.deliver, hmade, hwritten]) rfl
        exact ⟨_, _, rfl, hdone.after_silent
          (Session.silent_after _ (.tell (.written output.file (Text.byteLength text.toList))))⟩

/-- A build whose search ends puts out the bundle of its plan. -/
theorem Plan.ended_build (plan : Plan) {transform : Transformer} (format : Formatter)
    {session : Session} {found : Except Error Graph} {looks : List Look}
    (h : (View.of session).Discovers transform ⟨plan.extensions⟩ plan.entry found looks) :
    ∃ result after,
      (plan.build transform.told format : Run Session (Except Error Receipt)) session =
        some (result, after) ∧
      Ended session (plan.work format found) result after := by
  have hlooked := session.silent_foldl_after (plan.assembledLooks found looks)
  have hcompleted (session : Session) :=
    session.silent_after (.tell (.completed "Build" ⟨0⟩))
  rw [plan.build_of_discovers format h]
  unfold Plan.work
  cases plan.assembled found with
  | error error =>
    refine ⟨.error error, _, rfl, ?_⟩
    dsimp only
    refine .idle rfl ?_
    exact hlooked.trans (hcompleted _)
  | ok bundled =>
    obtain ⟨emitted, after, hemit, hended⟩ := plan.output.ended_emit format bundled.text
      ((plan.assembledLooks found looks).foldl Steady.after session)
    dsimp only
    rw [hemit]
    have hended := (hended.before_silent hlooked).map bundled.receipt
    cases emitted with
    | error error => exact ⟨_, _, rfl, hended.after_silent (hcompleted _)⟩
    | ok output =>
      have hbundled := after.silent_after (.tell (.bundled bundled.graph.size output.path ⟨0⟩))
      exact ⟨_, _, rfl, (hended.after_silent hbundled).after_silent (hcompleted _)⟩

/-- A build whose configuration has been read puts out the bundle of the plan that this makes with
    the options of the command. -/
theorem Command.ended_performLoaded {transform : Transformer} (format : Formatter)
    {overrides : Overrides} {loaded : Option LoadedSettings} {plan : Plan} {session : Session}
    {found : Except Error Graph} {looks : List Look}
    (hplan : Config.merge loaded overrides = .ok plan)
    (h : (View.of session).Discovers transform ⟨plan.extensions⟩ plan.entry found looks) :
    ∃ result after,
      (performLoaded transform.told format overrides loaded :
        ExceptT Error (Run Session) Unit).run session = some (result, after) ∧
      Ended session (plan.work format found) result after := by
  have hmerge : (ExceptT.mk (pure (Config.merge loaded overrides)) :
      ExceptT Error (Run Session) Plan).run session = some (.ok plan, session) :=
    congrArg (fun merged => some (merged, session)) hplan
  have hbuild (session : Session) : (ExceptT.mk (plan.build transform.told format) :
      ExceptT Error (Run Session) Receipt).run session =
        (plan.build transform.told format : Run Session (Except Error Receipt)) session := rfl
  -- What is shown on the way changes no file.
  have hshown : session.Silent { session with shown := session.shown ++ banner } := ⟨rfl, rfl, rfl⟩
  unfold performLoaded
  rw [run_bind, hmerge]
  dsimp only
  rw [run_bind, Session.run_print]
  dsimp only
  rw [run_bind, hbuild]
  generalize { session with shown := session.shown ++ banner } = shown at hshown ⊢
  obtain ⟨built, after, hbuilt, hended⟩ := plan.ended_build format (hshown.view.symm ▸ h)
  rw [hbuilt]
  have hended := (hended.before_silent hshown).map fun _ => ()
  cases built with
  | error error => exact ⟨_, _, rfl, hended⟩
  | ok receipt =>
    dsimp only
    rw [Session.run_print]
    exact ⟨_, _, rfl, hended.after_silent ⟨rfl, rfl, rfl⟩⟩

/-- A command that builds puts out the bundle that its configuration and its options ask for. -/
theorem Command.ended_performBuild (transform : Transformer) (format : Formatter)
    (config : Option String) (overrides : Overrides) (session : Session) :
    ∃ result after work,
      (performBuild transform.told format config overrides :
        ExceptT Error (Run Session) Unit).run session = some (result, after) ∧
      (Command.build config overrides).work transform format session = some work ∧
      Ended session work result after := by
  obtain ⟨made, hmade, hsilent⟩ := (onlyLooks_settings (View.of session) config).session
  have hmerged : (View.of session).plan config overrides =
      (View.of session).settings config >>= (Config.merge · overrides) := rfl
  unfold work
  dsimp only
  rw [performBuild_eq, run_bind, hmade, hmerged]
  cases (View.of session).settings config with
  | error error => exact ⟨_, _, _, rfl, rfl, .idle rfl hsilent⟩
  | ok loaded =>
    have hloaded : ((.ok loaded : Except Error (Option LoadedSettings)) >>=
        (Config.merge · overrides)) = Config.merge loaded overrides := rfl
    rw [hloaded]
    dsimp only
    cases hplan : Config.merge loaded overrides with
    | error error =>
      have hfails : (performLoaded transform.told format overrides loaded :
          ExceptT Error (Run Session) Unit).run made = some (.error error, made) := by
        have hmerge : (ExceptT.mk (pure (Config.merge loaded overrides)) :
            ExceptT Error (Run Session) Plan).run made = some (.error error, made) :=
          congrArg (fun merged => some (merged, made)) hplan
        unfold performLoaded
        rw [run_bind, hmerge]
      exact ⟨_, _, _, hfails, rfl, .idle rfl hsilent⟩
    | ok plan =>
      -- Finitely many paths lead to files, so the search ends.
      obtain ⟨files, hfiles⟩ := session.exists_hasFiles
      obtain ⟨found, looks, h⟩ := hfiles.exists_discovers transform ⟨plan.extensions⟩ plan.entry
      obtain ⟨result, after, hrun, hended⟩ :=
        ended_performLoaded format hplan (hsilent.view.symm ▸ h)
      refine ⟨result, after, plan.work format found, hrun, ?_, hended.before_silent hsilent⟩
      dsimp only
      rw [runs_discover h session rfl]
      rfl

/-- A command that writes a configuration writes the sample. -/
theorem Command.ended_performInit (transform : Transformer) (format : Formatter) (force : Bool)
    (session : Session) :
    ∃ result after work,
      (performInit force : ExceptT Error (Run Session) Unit).run session = some (result, after) ∧
      (Command.init force).work transform format session = some work ∧
      Ended session work result after := by
  have htaken : (FileStore.isTaken configPath : ExceptT Error (Run Session) Bool).run session =
      some (.ok (session.tree.isTaken session.process configPath), session) := rfl
  have hwrite : (FileStore.write configPath Settings.sample :
      ExceptT Error (Run Session) (Except FileFault Unit)).run session =
        some (.ok (session.tree.writeFile session.process configPath Settings.sample).1,
          { session with
            tree := (session.tree.writeFile session.process configPath Settings.sample).2 }) :=
    congrArg (fun written : Except FileFault Unit × Session => some (Except.ok written.1, written.2))
      (Session.write_eq configPath Settings.sample session)
  unfold performInit work
  dsimp only
  rw [← configPath, run_bind, htaken]
  -- A configuration that is there is left alone, unless the command forces it.
  by_cases hoccupied : (session.tree.isTaken session.process configPath && !force) = true
  · simp only [if_pos hoccupied]
    exact ⟨_, _, _, rfl, rfl, .idle rfl (.refl _)⟩
  · simp only [if_neg hoccupied]
    rw [run_bind, hwrite]
    have hdeliver := session.tree.deliver_configPath session.process Settings.sample
    rcases hwritten : session.tree.writeFile session.process configPath Settings.sample with
      ⟨fault | ⟨⟨⟩⟩, written⟩
    · exact ⟨_, _, _, rfl, rfl, .failed rfl (hdeliver.trans hwritten) rfl
        (.inl (Tree.writeFile_configPath_eq_error hwritten))⟩
    · have hended : Ended session (.ok ⟨".", configPath, Settings.sample⟩) (.ok ())
          { session with tree := written } := .done rfl (hdeliver.trans hwritten) rfl
      exact ⟨_, _, _, rfl, rfl, hended.after_silent
        (Session.silent_after _ (.tell (.configurationWritten configPath)))⟩

/-- Every command ends, and like this: it does the work that it asks for, or tells why it does
    not. -/
theorem Command.ended (transform : Transformer) (format : Formatter) (command : Command)
    (session : Session) :
    ∃ result after work,
      (command.perform transform.told format : ExceptT Error (Run Session) Unit).run session =
        some (result, after) ∧
      command.work transform format session = some work ∧ Ended session work result after := by
  cases command with
  | build config overrides => exact ended_performBuild transform format config overrides session
  | init force => exact ended_performInit transform format force session

end Bundler

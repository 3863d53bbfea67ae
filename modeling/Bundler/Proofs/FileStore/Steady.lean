import Bundler.FileStore.Memory
import Bundler.Proofs.Run
import Bundler.Session

/-!
# Stores that stay as they are while they are looked at

A search for modules only looks: it asks whether paths lead to files, reads files, and tells
what it does. A store is *steady* if what it answers does not depend on what was asked before,
so all that can be seen of it is a `View`, and if what looking leaves in it is known from
what was asked and told (`Look`). Files in memory are such a store, with a journal, and so is a
session, with the events told in it.

* `Runs`: what an action gives that only looks and comes to an end, and all that it asks and tells;
* `Runs.bind`, `Runs.andThen`, `Runs.orFail`: actions one after another.
-/

namespace Bundler

/-- What can be seen of a store. -/
structure View where
  /-- Whether a path leads to a file. -/
  isFile : String → Bool
  /-- What reading the file that a path leads to gives. -/
  read : String → Except FileFault String

/-- What an action that only looks does. -/
inductive Look where
  /-- It asks a store about a path. -/
  | call (access : Access) (path : String)
  /-- It tells an event. -/
  | tell (event : Event)
  deriving DecidableEq

/-- What can be seen of a store in a state. -/
def View.of {σ : Type} [FileStore (StateM σ)] (s : σ) : View where
  isFile path := ((FileStore.isFile path : StateM σ Bool) s).1
  read path := ((FileStore.read path : StateM σ (Except FileFault String)) s).1

/-- A store that looking leaves as it is, but for a trace, and in which no time passes. -/
class Steady (σ : Type) [FileStore (StateM σ)] [Reporter (StateM σ)] where
  /-- The trace that looking leaves. -/
  after : σ → Look → σ
  isFile_eq : ∀ path s,
    (FileStore.isFile path : StateM σ Bool) s =
      ((View.of s).isFile path, after s (.call .isFile path))
  read_eq : ∀ path s,
    (FileStore.read path : StateM σ (Except FileFault String)) s =
      ((View.of s).read path, after s (.call .read path))
  report_eq : ∀ event s, (Reporter.report event : StateM σ Unit) s = ((), after s (.tell event))
  now_eq : ∀ s, (Reporter.now : StateM σ Duration) s = (⟨0⟩, s)
  view_after : ∀ s look, View.of (after s look) = View.of s

/-- Files in memory keep a journal of what they are asked. -/
instance : Steady Memory where
  after memory
    | .call access path => memory.note access path
    | .tell _ => memory
  isFile_eq _ _ := rfl
  read_eq _ _ := rfl
  report_eq _ _ := rfl
  now_eq _ := rfl
  view_after _ look := by cases look <;> rfl

/-- A session keeps the events that its filter lets through. -/
instance : Steady Session where
  after session
    | .call _ _ => session
    | .tell event =>
      if session.filter.allows event.level then { session with events := session.events ++ [event] }
      else session
  isFile_eq _ _ := rfl
  read_eq _ _ := rfl
  report_eq _ _ := rfl
  now_eq _ := rfl
  view_after session look := by
    cases look with
    | call => rfl
    | tell event => by_cases h : session.filter.allows event.level <;> simp only [h] <;> rfl

section

variable {σ : Type} [FileStore (StateM σ)] [Reporter (StateM σ)] [Steady σ]

/-- Looking, however often, changes nothing that can be seen. -/
theorem View.of_foldl (s : σ) (looks : List Look) :
    View.of (looks.foldl Steady.after s) = View.of s := by
  induction looks generalizing s with
  | nil => rfl
  | cons look looks ih => rw [List.foldl_cons, ih, Steady.view_after]

/-- What is told leaves its trace. -/
theorem run_report {ε : Type} (event : Event) (s : σ) :
    (Reporter.report event : ExceptT ε (Run σ) Unit).run s =
      some (.ok (), Steady.after s (.tell event)) :=
  congrArg (fun told : Unit × σ => some (Except.ok told.1, told.2)) (Steady.report_eq event s)

/-- An action that is told when it starts and ends. -/
theorem timed_eq {α : Type} (action : String) (perform : Duration → Run σ α) (s : σ) :
    timed action perform s =
      (perform ⟨0⟩ (Steady.after s (.tell (.started action)))).map fun ended =>
        (ended.1, Steady.after ended.2 (.tell (.completed action ⟨0⟩))) := by
  have hnow (s : σ) : (Reporter.now : Run σ Duration) s = some (⟨0⟩, s) :=
    congrArg some (Steady.now_eq s)
  have hreport (event : Event) (s : σ) :
      (Reporter.report event : Run σ Unit) s = some ((), Steady.after s (.tell event)) :=
    congrArg some (Steady.report_eq event s)
  have hbind {β γ : Type} (act : Run σ β) (next : β → Run σ γ) (s : σ) :
      (act >>= next) s = (act s).bind fun result => next result.1 result.2 := rfl
  simp only [timed, elapsedSince, hbind, hnow, hreport, Option.bind_some]
  cases perform ⟨0⟩ (Steady.after s (.tell (.started action))) with
  | none => rfl
  | some ended => rfl

/-- In every store that looks like `v` the action ends, gives `a`, and does `looks`. -/
def Runs {α : Type} (v : View) (act : Run σ α) (a : α) (looks : List Look) : Prop :=
  ∀ s, View.of s = v → act s = some (a, looks.foldl Steady.after s)

namespace Runs

variable {α β : Type} {v : View} {a : α} {b : β} {looks more : List Look}

theorem pure (a : α) : Runs v (Pure.pure a : Run σ α) a [] := fun _ _ => rfl

theorem bind {act : Run σ α} {next : α → Run σ β} (h : Runs v act a looks)
    (hn : Runs v (next a) b more) : Runs v (act >>= next) b (looks ++ more) := by
  intro s hs
  have hs' : View.of (looks.foldl Steady.after s) = v := by rw [View.of_foldl, hs]
  show ((act s).bind fun result => next result.1 result.2) = _
  rw [h s hs, List.foldl_append]
  exact hn _ hs'

theorem isFile (path : String) :
    Runs v (FileStore.isFile path : Run σ Bool) (v.isFile path) [.call .isFile path] := by
  rintro s rfl
  exact congrArg some (Steady.isFile_eq path s)

theorem read (path : String) :
    Runs v (FileStore.read path : Run σ (Except FileFault String)) (v.read path)
      [.call .read path] := by
  rintro s rfl
  exact congrArg some (Steady.read_eq path s)

theorem report (event : Event) :
    Runs v (Reporter.report event : Run σ Unit) () [.tell event] :=
  fun s _ => congrArg some (Steady.report_eq event s)

theorem now : Runs v (Reporter.now : Run σ Duration) ⟨0⟩ [] :=
  fun s _ => congrArg some (Steady.now_eq s)

theorem elapsed : Runs v (elapsedSince ⟨0⟩ : Run σ Duration) ⟨0⟩ [] :=
  now.bind (pure _)

/-- An action that is told when it starts and ends takes no time. -/
theorem timed (perform : Duration → Run σ α) (h : Runs v (perform ⟨0⟩) a looks)
    (action : String) :
    Runs v (Bundler.timed action perform) a
      (.tell (.started action) :: looks ++ [.tell (.completed action ⟨0⟩)]) :=
  (report _).bind (now.bind (h.bind (elapsed.bind ((report _).bind (pure a)))))

/-! ### Actions that may fail -/

variable {ε : Type} {e : ε}

/-- An action that cannot fail, among those that may. -/
theorem lift {act : Run σ α} (h : Runs v act a looks) :
    Runs v (ExceptT.lift act : ExceptT ε (Run σ) α).run (.ok a) looks := by
  intro s hs
  show ((act s).bind fun result => some (Except.ok (ε := ε) result.1, result.2)) = _
  rw [h s hs]
  rfl

/-- After an action that succeeds comes the next one. -/
theorem andThen {act : ExceptT ε (Run σ) α} {next : α → ExceptT ε (Run σ) β}
    {result : Except ε β} (h : Runs v act.run (.ok a) looks)
    (hn : Runs v (next a).run result more) : Runs v (act >>= next).run result (looks ++ more) :=
  have hbind : Runs v (act.run >>= ExceptT.bindCont next) result (looks ++ more) := h.bind hn
  hbind

/-- After one look comes the next action. -/
theorem lookThen {act : ExceptT ε (Run σ) α} {next : α → ExceptT ε (Run σ) β}
    {result : Except ε β} {look : Look} (h : Runs v act.run (.ok a) [look])
    (hn : Runs v (next a).run result more) : Runs v (act >>= next).run result (look :: more) :=
  h.andThen hn

/-- After an action that fails comes nothing. -/
theorem orFail {act : ExceptT ε (Run σ) α} (next : α → ExceptT ε (Run σ) β)
    (h : Runs v act.run (.error e) looks) : Runs v (act >>= next).run (.error e) looks := by
  have hbind : Runs v (act.run >>= ExceptT.bindCont next) (.error e) (looks ++ []) :=
    h.bind (pure _)
  rwa [List.append_nil] at hbind

/-! ### Actions that are repeated -/

variable {act : α → ExceptT ε (Run σ) (α ⊕ β)} {next : α}

/-- After a turn that is not the last one come the others. -/
theorem again {result : Except ε β} (h : Runs v (act a).run (.ok (.inl next)) looks)
    (hn : Runs v (MonadIter.iterate act next : ExceptT ε (Run σ) β).run result more) :
    Runs v (MonadIter.iterate act a : ExceptT ε (Run σ) β).run result (looks ++ more) := by
  intro s hs
  have hs' : View.of (looks.foldl Steady.after s) = v := by rw [View.of_foldl, hs]
  rw [run_iterate, h s hs, List.foldl_append]
  exact hn _ hs'

/-- After a turn that gives a result comes nothing. -/
theorem last (h : Runs v (act a).run (.ok (.inr b)) looks) :
    Runs v (MonadIter.iterate act a : ExceptT ε (Run σ) β).run (.ok b) looks := by
  intro s hs
  rw [run_iterate, h s hs]

/-- After a turn that fails comes nothing. -/
theorem lastFail (h : Runs v (act a).run (.error e) looks) :
    Runs v (MonadIter.iterate act a : ExceptT ε (Run σ) β).run (.error e) looks := by
  intro s hs
  rw [run_iterate, h s hs]

end Runs

end

end Bundler

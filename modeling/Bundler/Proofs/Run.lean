import Bundler.Report

/-!
# How runs go

A run of an action that may fail goes on with the next action, or stops at an error, or never ends.
An action that is repeated is one run of it after another.

* `run_bind`: what comes after an action;
* `run_iterate`, `iterate_induct`: an action that is repeated, turn by turn;
* `Ensures`: what holds of the result of an action, whenever it ends.
-/

namespace Bundler

section

variable {σ ε α β : Type}

/-- What comes after an action that may fail. -/
theorem run_bind (act : ExceptT ε (Run σ) α) (next : α → ExceptT ε (Run σ) β) (s : σ) :
    (act >>= next).run s =
      match act.run s with
      | some (.ok a, s) => (next a).run s
      | some (.error e, s) => some (.error e, s)
      | none => none := by
  show (act.run s).bind (fun result => ExceptT.bindCont next result.1 result.2) = _
  obtain _ | ⟨_ | _, _⟩ := act.run s
  · rfl
  · rfl
  · rfl

/-- A turn of an action that may fail. -/
theorem run_settle (act : ExceptT ε (Run σ) (α ⊕ β)) (s : σ) :
    (settle <$> act.run : Run σ (α ⊕ Except ε β)) s =
      (act.run s).map fun result => (settle result.1, result.2) := by
  show (act.run s).bind (fun result => some (settle result.1, result.2)) = _
  rw [Option.map_eq_bind]
  rfl

/-- An action that is repeated is done once, and then again unless that was the last time. -/
theorem run_iterate (act : α → ExceptT ε (Run σ) (α ⊕ β)) (a : α) (s : σ) :
    (MonadIter.iterate act a : ExceptT ε (Run σ) β).run s =
      match (act a).run s with
      | some (.ok (.inl next), s) => (MonadIter.iterate act next : ExceptT ε (Run σ) β).run s
      | some (.ok (.inr result), s) => some (.ok result, s)
      | some (.error error, s) => some (.error error, s)
      | none => none := by
  show Run.iterate (fun a => settle <$> (act a).run) a s = _
  rw [Run.iterate, run_settle]
  obtain _ | ⟨_ | _ | _, _⟩ := (act a).run s
  · rfl
  · rfl
  · rfl
  · rfl

/-- What holds of each last turn, and of a turn if it holds from the next one on, holds of every run
    that ends. -/
theorem iterate_induct {act : α → ExceptT ε (Run σ) (α ⊕ β)}
    {motive : α → σ → Except ε β × σ → Prop}
    (again : ∀ {a next s s' ended}, (act a).run s = some (.ok (.inl next), s') →
      motive next s' ended → motive a s ended)
    (done : ∀ {a result s s'}, (act a).run s = some (.ok (.inr result), s') →
      motive a s (.ok result, s'))
    (fail : ∀ {a error s s'}, (act a).run s = some (.error error, s') →
      motive a s (.error error, s'))
    {a : α} {s : σ} {ended : Except ε β × σ}
    (h : (MonadIter.iterate act a : ExceptT ε (Run σ) β).run s = some ended) :
    motive a s ended := by
  refine Run.iterate.partial_correctness (fun a => settle <$> (act a).run) motive ?_ a s ended h
  intro iterate ih a s ended h
  rw [run_settle] at h
  cases hturn : (act a).run s with
  | none =>
    rw [hturn] at h
    cases h
  | some turned =>
    rw [hturn] at h
    obtain ⟨error | next | result, s'⟩ := turned
    · cases h
      exact fail hturn
    · exact again hturn (ih next s' ended h)
    · cases h
      exact done hturn

/-! ### Results -/

/-- What the action gives is `good`, from whatever state it runs, if it ends. -/
def Ensures (act : Run σ α) (good : α → Prop) : Prop :=
  ∀ s a s', act s = some (a, s') → good a

/-- Either there is a result that is `good`, or there is an error that is `admitted`. -/
def Fares (good : α → Prop) (admitted : ε → Prop) : Except ε α → Prop
  | .ok a => good a
  | .error e => admitted e

namespace Ensures

variable {good : α → Prop} {better : β → Prop} {admitted : ε → Prop}

theorem pure {a : α} (h : good a) : Ensures (Pure.pure a : Run σ α) good := by
  intro s a' s' ha
  cases ha
  exact h

/-- Nothing is said of the result. -/
theorem trivial (act : Run σ α) : Ensures act fun _ => True :=
  fun _ _ _ _ => ⟨⟩

theorem bind {act : Run σ α} {next : α → Run σ β} (h : Ensures act good)
    (hn : ∀ a, good a → Ensures (next a) better) : Ensures (act >>= next) better := by
  intro s b s' hb
  obtain ⟨⟨a, mid⟩, ha, hb⟩ := Option.bind_eq_some_iff.1 hb
  exact hn a (h s a mid ha) mid b s' hb

/-- An action that is told when it starts and ends. -/
theorem timed [Reporter (Run σ)] {perform : Duration → Run σ α}
    (h : ∀ start, Ensures (perform start) good) (action : String) :
    Ensures (Bundler.timed action perform) good :=
  (trivial _).bind fun _ _ => (trivial _).bind fun start _ => (h start).bind fun _ hresult =>
    (trivial _).bind fun _ _ => (trivial _).bind fun _ _ => pure hresult

theorem ok {a : α} (h : good a) :
    Ensures (Pure.pure a : ExceptT ε (Run σ) α).run (Fares good admitted) :=
  pure h

theorem fail {e : ε} (h : admitted e) :
    Ensures (throw e : ExceptT ε (Run σ) α).run (Fares good admitted) :=
  pure h

/-- An action that cannot fail, among those that may. -/
theorem lift {act : Run σ α} (h : Ensures act good) :
    Ensures (ExceptT.lift act : ExceptT ε (Run σ) α).run (Fares good admitted) := by
  intro s result s' hresult
  obtain ⟨⟨a, mid⟩, ha, hresult⟩ := Option.bind_eq_some_iff.1 hresult
  cases hresult
  exact h s a s' ha

/-- After an action that succeeds comes the next one, and after one that fails nothing. -/
theorem andThen {act : ExceptT ε (Run σ) α} {next : α → ExceptT ε (Run σ) β}
    (h : Ensures act.run (Fares good admitted))
    (hn : ∀ a, good a → Ensures (next a).run (Fares better admitted)) :
    Ensures (act >>= next).run (Fares better admitted) := by
  have hbind : Ensures (act.run >>= ExceptT.bindCont next) (Fares better admitted) := by
    refine h.bind fun result hresult => ?_
    cases result with
    | ok a => exact hn a hresult
    | error e => exact pure hresult
  exact hbind

/-- What each turn of an action keeps holds until the action ends. -/
theorem iterate {act : α → ExceptT ε (Run σ) (α ⊕ β)} {a : α}
    (h : ∀ a, good a → Ensures (act a).run (Fares (Sum.elim good better) admitted)) (ha : good a) :
    Ensures (MonadIter.iterate act a : ExceptT ε (Run σ) β).run (Fares better admitted) := by
  intro s result s' hresult
  refine iterate_induct (motive := fun a _ ended => good a → Fares better admitted ended.1)
    (fun hturn ih ha => ?_) (fun hturn ha => ?_) (fun hturn ha => ?_) hresult ha
  · exact ih (h _ ha _ _ _ hturn)
  · exact h _ ha _ _ _ hturn
  · exact h _ ha _ _ _ hturn

end Ensures

end

end Bundler

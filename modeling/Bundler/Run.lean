/-!
# Runs

A search goes on for as long as there are modules that it has not seen, and nothing bounds their
number. So a program is written for a monad in which an action can be repeated with no end in
sight, and a run of it on a value gives something only if it ends.

* `MonadIter`: a monad in which an action can be repeated;
* `Run`: actions on a state that may go on for ever.
-/

namespace Bundler

/-- A monad in which an action can be repeated for as long as it takes. -/
class MonadIter (m : Type → Type) where
  /-- Repeats an action, each time on what it gave the time before, until it gives a result. -/
  iterate {α β : Type} : (α → m (α ⊕ β)) → α → m β

/-- What becomes of a turn of an action that may fail: the next turn, or the end. -/
def settle {ε α β : Type} : Except ε (α ⊕ β) → α ⊕ Except ε β
  | .ok (.inl next) => .inl next
  | .ok (.inr result) => .inr (.ok result)
  | .error error => .inr (.error error)

/-- An action that may fail is repeated until it gives a result or fails. -/
instance {m : Type → Type} {ε : Type} [Monad m] [MonadIter m] : MonadIter (ExceptT ε m) where
  iterate act a := ExceptT.mk (MonadIter.iterate (fun a => settle <$> (act a).run) a)

/-- Actions on a state. One that never ends gives nothing. -/
abbrev Run (σ : Type) := StateT σ Option

namespace Run

variable {σ α β : Type}

/-- An action that ends. -/
def ofEnding (act : StateM σ α) : Run σ α :=
  fun s => some (act s)

/-- Repeats an action until it gives a result, and for ever if it never does. -/
def iterate (act : α → Run σ (α ⊕ β)) (a : α) (s : σ) : Option (β × σ) :=
  match act a s with
  | none => none
  -- With `apply`, the definition does not record where in its file the recursive call stands.
  | some (.inl next, s) => by apply iterate; exact act; exact next; exact s
  | some (.inr result, s) => some (result, s)
partial_fixpoint

instance : MonadIter (Run σ) where
  iterate := iterate

end Run

end Bundler

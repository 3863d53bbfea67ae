import Bundler.Proofs.FileStore.Steady

/-!
# Watched stores

Every view is that of a store, which answers as the view says, lets nothing be changed, and writes
down what it is asked and told.

* `Watched`: a view, with all that was looked at;
* `Watched.foldl_after`: what is looked at is written down.
-/

namespace Bundler

/-- A store that answers as a view says, with what it was asked and told so far. -/
structure Watched where
  /-- What can be seen of the store. -/
  view : View
  /-- What was asked and told, in order. -/
  looks : List Look

namespace Watched

/-- A store that was not looked at yet. -/
def start (view : View) : Watched :=
  { view, looks := [] }

/-- Writes a look down. -/
def note (watched : Watched) (look : Look) : Watched :=
  { watched with looks := watched.looks ++ [look] }

instance : FileStore (StateM Watched) where
  isFile path := fun watched => (watched.view.isFile path, watched.note (.call .isFile path))
  isTaken path := fun watched => (watched.view.isFile path, watched)
  read path := fun watched => (watched.view.read path, watched.note (.call .read path))
  write path _ := fun watched => (.error (.refused .write path), watched.note (.call .write path))
  makeDirectory path := fun watched =>
    (.error (.refused .makeDirectory path), watched.note (.call .makeDirectory path))

instance : Reporter (StateM Watched) where
  report event := fun watched => ((), watched.note (.tell event))
  now := fun watched => (⟨0⟩, watched)

instance : Steady Watched where
  after := note
  isFile_eq _ _ := rfl
  read_eq _ _ := rfl
  report_eq _ _ := rfl
  now_eq _ := rfl
  view_after _ _ := rfl

/-- Looking is written down and leaves the view as it is. -/
theorem foldl_after (watched : Watched) (looks : List Look) :
    looks.foldl Steady.after watched = { watched with looks := watched.looks ++ looks } := by
  induction looks generalizing watched with
  | nil => rw [List.foldl_nil, List.append_nil]
  | cons look looks ih =>
    rw [List.foldl_cons, ih]
    simp [Steady.after, note]

end Watched

end Bundler

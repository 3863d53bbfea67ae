import Bundler.Proofs.Script.Sight
import Bundler.Proofs.Script.Uses

/-!
# The names at the top

The names that are bound at the top of a script are noted. So a name that is not among them is bound
by no scope at the top, whatever the script binds in the scopes within.

* `Analysis.kinds`: what the scopes are that have not ended;
* `Analysis.Noted`: what is bound at the top is among the names there;
* `Analysis.Noted.step`: it is so whatever occurs.
-/

namespace Bundler.Script.Analysis

/-- What the scopes are that have not ended, the innermost one first. -/
def kinds (analysis : Analysis) : List ScopeKind :=
  analysis.scopes.map (·.kind)

theorem kinds_bare (analysis : Analysis) : analysis.bare.kinds = analysis.kinds := by
  simp [kinds, bare, Function.comp_def]

theorem kinds_lookUp (analysis : Analysis) : analysis.lookUp.kinds = analysis.kinds := by
  rw [← kinds_bare, bare_lookUp, kinds_bare]

theorem kinds_use (analysis : Analysis) (use : Use) : (analysis.use use).kinds = analysis.kinds := by
  rw [← kinds_bare, bare_use, kinds_bare]

theorem kinds_bindHere (analysis : Analysis) (id : Ident) (kind : BindingKind) :
    (analysis.bindHere id kind).kinds = analysis.kinds := by
  unfold bindHere
  split
  next => rfl
  next scope outer hscopes => simp [kinds, hscopes, Scope.put]

theorem kinds_bindVar (analysis : Analysis) (id : Ident) :
    (analysis.bindVar id).kinds = analysis.kinds := by
  have hsplit := analysis.scopes.takeWhile_append_dropWhile
    (p := fun scope => !scope.kind.holdsVariables)
  unfold bindVar
  dsimp only
  split
  next => rfl
  next home outer hdrop =>
    rw [hdrop] at hsplit
    unfold kinds
    conv_rhs => rw [← hsplit]
    simp [Scope.put, Function.comp_def]

theorem kinds_bind (analysis : Analysis) (id : Ident) (kind : BindingKind) :
    (analysis.step (.bind id kind)).kinds = analysis.kinds := by
  cases kind with
  | var => exact kinds_bindVar _ _
  | _ => exact kinds_bindHere _ _ _

theorem kinds_leave (analysis : Analysis) :
    (analysis.step .leave).kinds = analysis.kinds.drop 1 := by
  have h := congrArg (List.drop 1) analysis.kinds_lookUp
  unfold kinds at h ⊢
  rw [← h, ← List.map_drop]
  rfl

/-- What is bound in a scope at the top is among the names there. -/
def Noted (analysis : Analysis) : Prop :=
  ∀ scope ∈ analysis.scopes, ∀ goal, scope.kind = .top goal →
    ∀ binding ∈ scope.bindings, ∃ id ∈ analysis.top, id.name = binding.id.name

theorem noted_bare {analysis : Analysis} : analysis.bare.Noted ↔ analysis.Noted := by
  simp [Noted, bare]

theorem mem_noteTop {analysis : Analysis} {scope : Scope} {id : Ident} {goal : Goal}
    (h : scope.kind = .top goal) : id ∈ analysis.noteTop scope id := by
  unfold noteTop
  rw [h]
  dsimp only
  split
  next hmem => exact List.contains_iff_mem.1 hmem
  · exact .head _

theorem top_subset_noteTop (analysis : Analysis) (scope : Scope) (id : Ident) :
    analysis.top ⊆ analysis.noteTop scope id := by
  intro other hother
  unfold noteTop
  split
  · split
    · exact hother
    · exact .tail _ hother
  · exact hother

namespace Noted

variable {analysis next : Analysis}

/-- A name is bound in some scopes, and noted if one of them is at the top. -/
theorem put (h : analysis.Noted) (htop : analysis.top ⊆ next.top)
    (hscopes : ∀ scope ∈ next.scopes, scope ∈ analysis.scopes ∨
      ∃ old ∈ analysis.scopes, ∃ binding, scope = old.put binding ∧
        ∀ goal, old.kind = .top goal → binding.id ∈ next.top) : next.Noted := by
  intro scope hscope goal hkind binding hbinding
  have hold : ∀ old ∈ analysis.scopes, old.kind = .top goal → binding ∈ old.bindings →
      ∃ id ∈ next.top, id.name = binding.id.name := by
    intro old hmem hkind hbinding
    obtain ⟨id, hid, hname⟩ := h old hmem goal hkind binding hbinding
    exact ⟨id, htop hid, hname⟩
  rcases hscopes scope hscope with hsame | ⟨old, hmem, added, rfl, hnoted⟩
  · exact hold scope hsame hkind hbinding
  · rcases List.mem_append.1 hbinding with hbinding | hbinding
    · exact hold old hmem hkind (List.mem_filter.1 hbinding).1
    · obtain rfl := List.mem_singleton.1 hbinding
      exact ⟨_, hnoted goal hkind, rfl⟩

theorem bindHere (h : analysis.Noted) (id : Ident) (kind : BindingKind) :
    (analysis.bindHere id kind).Noted := by
  unfold Analysis.bindHere
  split
  next => exact h
  next scope outer hscopes =>
    refine h.put (top_subset_noteTop _ _ _) fun other hother => ?_
    rcases List.mem_cons.1 hother with rfl | hother
    · exact .inr ⟨scope, hscopes ▸ .head _, _, rfl, fun goal hkind => mem_noteTop hkind⟩
    · exact .inl (hscopes ▸ .tail _ hother)

theorem bindVar (h : analysis.Noted) (id : Ident) : (analysis.bindVar id).Noted := by
  have hsplit := analysis.scopes.takeWhile_append_dropWhile
    (p := fun scope => !scope.kind.holdsVariables)
  unfold Analysis.bindVar
  dsimp only
  split
  next => exact h
  next home outer hdrop =>
    rw [hdrop] at hsplit
    refine h.put (top_subset_noteTop _ _ _) fun other hother => ?_
    rcases List.mem_append.1 hother with hother | hother
    · obtain ⟨scope, hscope, rfl⟩ := List.mem_map.1 hother
      refine .inr ⟨scope, hsplit ▸ List.mem_append_left _ hscope, _, rfl, fun goal hkind => ?_⟩
      -- The scopes between are blocks.
      have := List.mem_takeWhile_imp hscope
      rw [hkind] at this
      cases this
    · rcases List.mem_cons.1 hother with rfl | hother
      · exact .inr ⟨home, hsplit ▸ List.mem_append_right _ (.head _), _, rfl,
          fun goal hkind => mem_noteTop hkind⟩
      · exact .inl (hsplit ▸ List.mem_append_right _ (.tail _ hother))

/-- Whatever occurs, all that is bound at the top is noted. -/
theorem step (h : analysis.Noted) (occurrence : Occurrence) : (analysis.step occurrence).Noted := by
  have hlookUp : analysis.lookUp.Noted := by
    rw [← noted_bare, bare_lookUp, noted_bare]
    exact h
  cases occurrence with
  | enter kind =>
    intro scope hscope goal hkind binding hbinding
    rcases List.mem_cons.1 hscope with rfl | hscope
    · cases hbinding
    · exact h scope hscope goal hkind binding hbinding
  | leave => exact fun scope hscope => hlookUp scope (List.mem_of_mem_drop hscope)
  | settle => exact hlookUp
  | bind id kind =>
    cases kind with
    | var => exact h.bindVar id
    | _ => exact h.bindHere id _
  | use id role =>
    show (analysis.use ⟨id, role⟩).Noted
    rw [← noted_bare, bare_use, noted_bare]
    exact h
  | unsupported | broken => exact h

/-- A name that the outermost scope binds at the top is among the names there. -/
theorem mem_top {scope : Scope} {goal : Goal} {name : String} {binding : Binding}
    (h : analysis.Noted) (hscopes : analysis.scopes = [scope]) (hkind : scope.kind = .top goal)
    (hfind : scope.find? name = some binding) : ∃ id ∈ analysis.top, id.name = name := by
  obtain ⟨id, hid, hname⟩ :=
    h scope (hscopes ▸ .head _) goal hkind binding (List.mem_of_find?_eq_some hfind)
  exact ⟨id, hid, hname.trans (Scope.name_of_find? hfind)⟩

end Noted

/-- The names at the top are the same, whatever the uses are called. -/
theorem top_renamed (name : Ident → String) (program : Program) :
    ((program.inside.map (.rename name)).foldl step (start.step (.enter (.top .module)))).top =
      (ofOccurrences (program.occurrences .module)).top := by
  have hbare := congrArg Analysis.top (bare_foldl name program.inside
    (rfl : (start.step (.enter (.top .module))).bare = _))
  have hleave (analysis : Analysis) : (analysis.step .leave).top = analysis.top := by
    have h : analysis.lookUp.bare.top = analysis.bare.top := by rw [bare_lookUp]
    exact h
  rw [Program.occurrences_module, ofOccurrences, List.foldl_append, List.foldl_append,
    List.foldl_cons, List.foldl_nil, List.foldl_cons, List.foldl_nil, hleave]
  exact hbare

end Bundler.Script.Analysis

import Bundler.Script.Scope
import Mathlib.Data.List.TakeWhile
import Mathlib.Data.List.Induction
import Mathlib.Tactic.Tauto

/-!
# What a use can see

Whether a name means, where it is used, what the outermost scope binds by it depends on little:
on the scopes around that bind it as well, and on where the use waits. So it is followed
through a script without all that the scopes know of other names.

* `Sight`: what the scopes that have not ended tell about a use;
* `Sees`: scopes that tell it;
* `Sees.used`, `Sees.leave`, `Sees.bindHere`, `Sees.bindVar` and so on: what becomes of it.
-/

namespace Bundler.Script

/-! ### Scopes -/

namespace Scope

variable {scope : Scope} {name : String}

theorem name_of_find? {binding : Binding} (h : scope.find? name = some binding) :
    binding.id.name = name := by
  have := List.find?_some h
  simpa only [beq_iff_eq] using this

/-- A name that is bound anew means that binding, and the others mean what they did. -/
theorem find?_put (scope : Scope) (binding : Binding) (name : String) :
    (scope.put binding).find? name =
      if binding.id.name = name then some binding else scope.find? name := by
  unfold find? put
  rw [List.find?_append]
  split
  next h =>
    have hnone : (scope.bindings.filter fun other => other.id.name != binding.id.name).find?
        (fun other => other.id.name == name) = none := by
      rw [List.find?_eq_none]
      intro other hother
      simpa [h] using (List.mem_filter.1 hother).2
    rw [hnone, Option.none_or, List.find?_singleton, if_pos (by simp [h])]
  next h =>
    have hnone : [binding].find? (fun other => other.id.name == name) = none := by simp [h]
    rw [hnone, Option.or_none, List.find?_filter]
    congr 1
    funext other
    by_cases ho : other.id.name = name
    · simp [ho, Ne.symm h]
    · simp [ho]

/-- A use means nothing in a scope that binds its name not, or for a scope further out. -/
theorem meaning?_isNone {use : Use} : (scope.meaning? use).isNone = true ↔
    (scope.find? use.id.name).map (·.passing) ≠ some false := by
  unfold meaning?
  cases scope.find? use.id.name with
  | none => simp
  | some binding => cases h : binding.passing <;> simp [h]

end Scope

theorem Analysis.name_merge {id : Ident} {kind : BindingKind} {old : Option Binding}
    (h : ∀ binding ∈ old, binding.id.name = id.name) : (merge id kind old).id.name = id.name := by
  cases old with
  | none => rfl
  | some old => exact h old rfl

/-- What is no variable is bound in the innermost scope. -/
theorem Analysis.step_bind_of_ne {kind : BindingKind} (h : kind ≠ .var) (analysis : Analysis)
    (id : Ident) : analysis.step (.bind id kind) = analysis.bindHere id kind := by
  cases kind with
  | var => exact absurd rfl h
  | _ => rfl

/-! ### Sight -/

/-- What a scope tells about a use. -/
structure View where
  /-- Whether variables belong to the scope. -/
  holds : Bool
  /-- Whether the name is bound in the scope, and if so, whether it belongs further out. -/
  passing : Option Bool
  /-- Whether the use waits in the scope. -/
  waits : Bool
  deriving DecidableEq, Repr

/-- What a scope tells about a use. -/
def Scope.view (use : Use) (scope : Scope) : View where
  holds := scope.kind.holdsVariables
  passing := (scope.find? use.id.name).map (·.passing)
  waits := decide (use ∈ scope.waiting)

theorem Scope.view_waiting (use : Use) (scope : Scope) (uses : List Use) :
    ({ scope with waiting := uses }.view use) =
      { scope.view use with waits := decide (use ∈ uses) } :=
  rfl

/-- Whether a use that waits in a scope waits further out when the scope has ended. -/
def View.passesOn (view : View) : Bool :=
  view.waits && view.passing != some false

/-- What the scopes that have not ended tell about a use: what each but the outermost one
    tells, the innermost one first, and whether the use waits in the outermost one. -/
structure Sight where
  /-- What the inner scopes tell. -/
  inner : List View
  /-- Whether the use waits in the outermost scope. -/
  waits : Bool
  deriving DecidableEq, Repr

namespace Sight

/-- How many scopes are in the outermost one. -/
def depth (sight : Sight) : Nat :=
  sight.inner.length

/-- A scope starts. -/
def enter (kind : ScopeKind) (sight : Sight) : Sight :=
  { sight with inner := ⟨kind.holdsVariables, none, false⟩ :: sight.inner }

/-- The use may wait in the innermost scope from now on. -/
def wait (on : Bool) (sight : Sight) : Sight :=
  match sight.inner with
  | [] => { sight with waits := on || sight.waits }
  | view :: more => { sight with inner := { view with waits := on || view.waits } :: more }

/-- The innermost scope ends. -/
def leave (sight : Sight) : Sight :=
  match sight.inner with
  | [] => sight
  | view :: more => { sight with inner := more }.wait view.passesOn

/-- What waits in the innermost scope is looked up. -/
def settle (sight : Sight) : Sight :=
  match sight.inner with
  | [] => { sight with waits := false }
  | view :: _ => { sight.leave with inner := { view with waits := false } :: sight.leave.inner }

/-- The name is bound in the innermost scope. -/
def bindHere (sight : Sight) : Sight :=
  match sight.inner with
  | [] => sight
  | view :: more =>
    { sight with inner := { view with passing := some (view.passing.getD false) } :: more }

/-- The name is bound as a variable of the function around. -/
def bindVarIn : List View → List View
  | [] => []
  | view :: more =>
    if view.holds then { view with passing := some false } :: more
    else { view with passing := some true } :: bindVarIn more

/-- The name is bound as a variable of the function around. -/
def bindVar (sight : Sight) : Sight :=
  { sight with inner := bindVarIn sight.inner }

/-- Whether a variable belongs to the outermost scope where it is bound. -/
def reaches (sight : Sight) : Bool :=
  sight.inner.all fun view => !view.holds

/-- Whether the name is bound in a scope within the outermost one. -/
def meets (sight : Sight) : Bool :=
  sight.inner.any fun view => view.passing.isSome

/-- Whether no scope within the outermost one binds the name. -/
def Unmet (sight : Sight) : Prop :=
  ∀ view ∈ sight.inner, view.passing = none

/-- Whether the use waits somewhere. -/
def Waits (sight : Sight) : Prop :=
  sight.waits = true ∨ ∃ view ∈ sight.inner, view.waits = true

/-! How deep the scopes are nested. -/

theorem depth_wait (sight : Sight) (on : Bool) : (sight.wait on).depth = sight.depth := by
  obtain ⟨_ | ⟨view, more⟩, waits⟩ := sight <;> rfl

theorem depth_leave (sight : Sight) : sight.leave.depth = sight.depth - 1 := by
  obtain ⟨_ | ⟨view, more⟩, waits⟩ := sight
  · rfl
  · exact depth_wait _ _

theorem depth_settle (sight : Sight) : sight.settle.depth = sight.depth := by
  obtain ⟨_ | ⟨view, more⟩, waits⟩ := sight
  · rfl
  · exact congrArg (· + 1) (depth_leave _)

theorem depth_bindHere (sight : Sight) : sight.bindHere.depth = sight.depth := by
  obtain ⟨_ | ⟨view, more⟩, waits⟩ := sight <;> rfl

theorem depth_bindVar (sight : Sight) : sight.bindVar.depth = sight.depth := by
  unfold bindVar depth
  dsimp only
  induction sight.inner with
  | nil => rfl
  | cons view more ih =>
    unfold bindVarIn
    split
    · rfl
    · rw [List.length_cons, ih, List.length_cons]

/-! Whether the use waits. -/

theorem Unmet.wait {sight : Sight} (h : sight.Unmet) (on : Bool) : (sight.wait on).Unmet := by
  obtain ⟨_ | ⟨view, more⟩, waits⟩ := sight
  · exact h
  · simpa [Unmet, Sight.wait] using h

theorem waits_wait {sight : Sight} {on : Bool} :
    (sight.wait on).Waits ↔ on = true ∨ sight.Waits := by
  obtain ⟨_ | ⟨view, more⟩, waits⟩ := sight
  · simp [Waits, wait]
  · simp only [Waits, wait, List.mem_cons, exists_eq_or_imp, Bool.or_eq_true]
    tauto

theorem Unmet.leave {sight : Sight} (h : sight.Unmet) : sight.leave.Unmet := by
  obtain ⟨_ | ⟨view, more⟩, waits⟩ := sight
  · exact h
  · exact Unmet.wait (fun view hview => h view (.tail _ hview)) _

/-- A use that no scope within binds waits on when a scope ends. -/
theorem Waits.leave {sight : Sight} (h : sight.Waits) (hunmet : sight.Unmet) :
    sight.leave.Waits := by
  obtain ⟨_ | ⟨view, more⟩, waits⟩ := sight
  · exact h
  · have hpasses : view.passesOn = view.waits := by
      simp [View.passesOn, hunmet view (.head _)]
    refine waits_wait.2 ?_
    rw [hpasses]
    simp only [Waits, List.mem_cons, exists_eq_or_imp] at h ⊢
    tauto

theorem Unmet.settle {sight : Sight} (h : sight.Unmet) : sight.settle.Unmet := by
  obtain ⟨_ | ⟨view, more⟩, waits⟩ := sight
  · exact h
  · intro other hother
    rcases List.mem_cons.1 hother with rfl | hother
    · exact h view (.head _)
    · exact h.leave other hother

theorem Waits.settle {sight : Sight} (h : sight.Waits) (hunmet : sight.Unmet)
    (hdepth : 0 < sight.depth) : sight.settle.Waits := by
  have hleft := h.leave hunmet
  obtain ⟨_ | ⟨view, more⟩, waits⟩ := sight
  · exact absurd hdepth (Nat.lt_irrefl 0)
  · rcases hleft with hleft | ⟨other, hother, hleft⟩
    · exact .inl hleft
    · exact .inr ⟨other, .tail _ hother, hleft⟩

end Sight

/-- Scopes in which a use has some sight and its name is bound so in the outermost one. -/
inductive Sees (use : Use) (bound : Option Binding) : Sight → List Scope → Prop where
  /-- The outermost scope alone. -/
  | bottom (scope : Scope) (hholds : scope.kind.holdsVariables = true)
    (hbound : scope.find? use.id.name = bound) :
    Sees use bound ⟨[], decide (use ∈ scope.waiting)⟩ [scope]
  /-- A scope in others. -/
  | inside (scope : Scope) {scopes : List Scope} {inner : List View} {waits : Bool}
    (hkinds : ∀ binding ∈ scope.find? use.id.name, binding.kinds ≠ [])
    (h : Sees use bound ⟨inner, waits⟩ scopes) :
    Sees use bound ⟨scope.view use :: inner, waits⟩ (scope :: scopes)

namespace Sees

variable {use : Use} {bound : Option Binding} {sight : Sight} {scope : Scope}
  {scopes : List Scope} {analysis : Analysis}

theorem ne_nil (h : Sees use bound sight scopes) : scopes ≠ [] := by
  cases h <;> exact nofun

/-- Outside of all inner scopes there is but the outermost one. -/
theorem eq_bottom (h : Sees use bound sight scopes) (hdepth : sight.depth = 0) :
    ∃ scope, scopes = [scope] ∧ decide (use ∈ scope.waiting) = sight.waits ∧
      scope.find? use.id.name = bound := by
  cases h with
  | bottom scope _ hbound => exact ⟨scope, rfl, rfl, hbound⟩
  | inside => exact absurd hdepth (Nat.succ_ne_zero _)

/-- Scopes outside of all inner ones tell one thing. -/
theorem unique {bound' : Option Binding} {sight' : Sight} (h : Sees use bound sight scopes)
    (h' : Sees use bound' sight' scopes) (hdepth : sight'.depth = 0) :
    sight = sight' ∧ bound = bound' := by
  obtain ⟨scope, rfl, hwaits, rfl⟩ := h'.eq_bottom hdepth
  obtain ⟨inner, waits⟩ := sight'
  obtain rfl := List.length_eq_zero_iff.1 hdepth
  cases h with
  | bottom _ _ hbound => exact ⟨congrArg (Sight.mk []) hwaits, hbound.symm⟩
  | inside _ _ h => exact absurd rfl h.ne_nil

/-- A scope starts. -/
theorem enter (h : Sees use bound sight analysis.scopes) (kind : ScopeKind) :
    Sees use bound (sight.enter kind) (analysis.step (.enter kind)).scopes :=
  .inside ⟨kind, [], []⟩ (fun _ h => nomatch h) h

/-- More uses wait in the innermost scope. -/
theorem wait (h : Sees use bound sight (scope :: scopes)) (uses : List Use) :
    Sees use bound (sight.wait (decide (use ∈ uses)))
      ({ scope with waiting := uses ++ scope.waiting } :: scopes) := by
  cases h with
  | bottom _ hholds hbound =>
    have := bottom { scope with waiting := uses ++ scope.waiting } hholds hbound
    simpa only [Sight.wait, List.mem_append, Bool.decide_or] using this
  | inside _ hkinds h =>
    have := inside { scope with waiting := uses ++ scope.waiting } hkinds h
    rw [Scope.view_waiting] at this
    simpa only [Sight.wait, Scope.view, List.mem_append, Bool.decide_or] using this

/-- A name is used. -/
theorem used (h : Sees use bound sight analysis.scopes) (other : Use) :
    Sees use bound (sight.wait (decide (use = other))) (analysis.use other).scopes := by
  unfold Analysis.use
  split
  next hnil => exact absurd hnil h.ne_nil
  next scope outer hscopes =>
    rw [hscopes] at h
    simpa only [List.mem_singleton, List.singleton_append] using h.wait [other]

/-- The uses that wait in a scope and mean nothing there. -/
theorem mem_further (use : Use) (scope : Scope) :
    decide (use ∈ scope.waiting.filter fun use => (scope.meaning? use).isNone) =
      (scope.view use).passesOn := by
  rw [Bool.eq_iff_iff]
  simp only [decide_eq_true_eq, List.mem_filter, Scope.meaning?_isNone, View.passesOn,
    Scope.view, Bool.and_eq_true, bne_iff_ne]

/-- What waits in a scope within others is looked up. -/
theorem lookUp (h : Sees use bound sight analysis.scopes) (hdepth : 0 < sight.depth) :
    Sees use bound sight.settle analysis.lookUp.scopes ∧
      Sees use bound sight.leave (analysis.lookUp.scopes.drop 1) := by
  unfold Analysis.lookUp
  generalize analysis.scopes = scopes at h
  cases h with
  | bottom => exact absurd hdepth (Nat.lt_irrefl 0)
  | @inside scope scopes inner waits hkinds h =>
    cases scopes with
    | nil => exact absurd rfl h.ne_nil
    | cons around others =>
      have hleft := h.wait (scope.waiting.filter fun use => (scope.meaning? use).isNone)
      rw [mem_further] at hleft
      refine ⟨?_, hleft⟩
      exact inside { scope with waiting := [] } hkinds hleft

/-- A scope within others ends. -/
theorem leave (h : Sees use bound sight analysis.scopes) (hdepth : 0 < sight.depth) :
    Sees use bound sight.leave (analysis.step .leave).scopes :=
  (h.lookUp hdepth).2

/-- What waits in a scope within others is looked up. -/
theorem settle (h : Sees use bound sight analysis.scopes) (hdepth : 0 < sight.depth) :
    Sees use bound sight.settle (analysis.step .settle).scopes :=
  (h.lookUp hdepth).1

/-! ### Names that are bound -/

variable {id : Ident} {binding : Binding}

theorem view_put (hname : binding.id.name = use.id.name) (scope : Scope) :
    (scope.put binding).view use = { scope.view use with passing := some binding.passing } := by
  simp only [Scope.view, Scope.find?_put, if_pos hname, Option.map_some]
  rfl

theorem view_put_of_ne (hname : binding.id.name ≠ use.id.name) (scope : Scope) :
    (scope.put binding).view use = scope.view use := by
  simp only [Scope.view, Scope.find?_put, if_neg hname]
  rfl

/-- Another name is bound in the innermost scope. -/
theorem put_of_ne (h : Sees use bound sight (scope :: scopes))
    (hname : binding.id.name ≠ use.id.name) :
    Sees use bound sight (scope.put binding :: scopes) := by
  cases h with
  | bottom _ hholds hbound =>
    exact bottom (scope.put binding) hholds (by rw [Scope.find?_put, if_neg hname, hbound])
  | inside _ hkinds h =>
    rw [← view_put_of_ne hname]
    exact inside (scope.put binding) (by rwa [Scope.find?_put, if_neg hname]) h

/-- The name is bound in the innermost scope, which is in others. -/
theorem put_inside (h : Sees use bound sight (scope :: scopes)) (hdepth : 0 < sight.depth)
    (hname : binding.id.name = use.id.name) (hkinds : binding.kinds ≠ [])
    (hpassing : binding.passing = ((scope.find? use.id.name).map (·.passing)).getD false) :
    Sees use bound sight.bindHere (scope.put binding :: scopes) := by
  cases h with
  | bottom => exact absurd hdepth (Nat.lt_irrefl 0)
  | inside _ _ h =>
    have := inside (scope.put binding) (by simpa [Scope.find?_put, hname] using hkinds) h
    rwa [view_put hname, hpassing] at this

/-- The name is bound in the outermost scope. -/
theorem put_bottom (h : Sees use bound sight (scope :: scopes)) (hdepth : sight.depth = 0)
    (hname : binding.id.name = use.id.name) :
    Sees use (some binding) sight (scope.put binding :: scopes) := by
  cases h with
  | bottom _ hholds _ =>
    exact bottom (scope.put binding) hholds (by rw [Scope.find?_put, if_pos hname])
  | inside => exact absurd hdepth (Nat.succ_ne_zero _)

theorem merge_kinds_ne (id : Ident) (kind : BindingKind) (old : Option Binding) :
    (Analysis.merge id kind old).kinds ≠ [] := by
  cases old <;> exact nofun

theorem merge_passing (id : Ident) (kind : BindingKind) (old : Option Binding) :
    (Analysis.merge id kind old).passing = (old.map (·.passing)).getD false := by
  cases old <;> rfl

theorem name_merge_find? (id : Ident) (kind : BindingKind) (scope : Scope) :
    (Analysis.merge id kind (scope.find? id.name)).id.name = id.name :=
  Analysis.name_merge fun _ => Scope.name_of_find?

/-- Another name is bound. -/
theorem bindHere_of_ne (h : Sees use bound sight analysis.scopes) (hname : id.name ≠ use.id.name)
    (kind : BindingKind) : Sees use bound sight (analysis.bindHere id kind).scopes := by
  unfold Analysis.bindHere
  split
  next hnil => exact absurd hnil h.ne_nil
  next scope outer hscopes =>
    rw [hscopes] at h
    exact h.put_of_ne (by rwa [name_merge_find?])

/-- The name is bound in a scope within others. -/
theorem bindHere_inside (h : Sees use bound sight analysis.scopes) (hdepth : 0 < sight.depth)
    (hname : id.name = use.id.name) (kind : BindingKind) :
    Sees use bound sight.bindHere (analysis.bindHere id kind).scopes := by
  unfold Analysis.bindHere
  split
  next hnil => exact absurd hnil h.ne_nil
  next scope outer hscopes =>
    rw [hscopes] at h
    refine h.put_inside hdepth ?_ (merge_kinds_ne _ _ _) ?_
    · rw [name_merge_find?, hname]
    · rw [merge_passing, hname]

/-- The name is bound in the outermost scope. -/
theorem bindHere_bottom (h : Sees use bound sight analysis.scopes) (hdepth : sight.depth = 0)
    (hname : id.name = use.id.name) (kind : BindingKind) :
    Sees use (some (Analysis.merge id kind bound)) sight (analysis.bindHere id kind).scopes := by
  unfold Analysis.bindHere
  split
  next hnil => exact absurd hnil h.ne_nil
  next scope outer hscopes =>
    rw [hscopes] at h
    have hbound : scope.find? id.name = bound := by
      cases h with
      | bottom _ _ hbound => rw [hname, hbound]
      | inside => exact absurd hdepth (Nat.succ_ne_zero _)
    rw [← hbound]
    exact h.put_bottom hdepth (by rw [name_merge_find?, hname])

end Sees

/-! ### Variables -/

/-- A variable is bound: in the function around, and as one that passes in the scopes between. -/
def putVar (binding : Binding) : List Scope → List Scope
  | [] => []
  | scope :: more =>
    if scope.kind.holdsVariables then scope.put { binding with passing := false } :: more
    else scope.put { binding with passing := true } :: putVar binding more

/-- What a name of a variable is bound to so far, up to the function around. -/
def oldVar? (name : String) : List Scope → Option Binding
  | [] => none
  | scope :: more =>
    (scope.find? name).or (if scope.kind.holdsVariables then none else oldVar? name more)

theorem name_of_oldVar? {name : String} {binding : Binding} {scopes : List Scope}
    (h : oldVar? name scopes = some binding) : binding.id.name = name := by
  fun_induction oldVar? name scopes with
  | case1 => cases h
  | case2 scope more ih =>
    rcases Option.or_eq_some_iff.1 h with h | ⟨-, h⟩
    · exact Scope.name_of_find? h
    split at h
    · cases h
    · exact ih h

/-- How a variable is bound, one scope after another. -/
theorem Analysis.bindVar_scopes (analysis : Analysis) (id : Ident)
    (h : ∃ scope ∈ analysis.scopes, scope.kind.holdsVariables = true) :
    (analysis.bindVar id).scopes =
      putVar (merge id .var (oldVar? id.name analysis.scopes)) analysis.scopes := by
  -- Scope by scope, what is bound in `takeWhile` passes, and what comes next is the function.
  have hput : ∀ (binding : Binding) (scopes : List Scope) {home : Scope} {outer : List Scope},
      scopes.dropWhile (fun scope => !scope.kind.holdsVariables) = home :: outer →
      putVar binding scopes =
        (scopes.takeWhile fun scope => !scope.kind.holdsVariables).map
          (fun scope => scope.put { binding with passing := true }) ++
          home.put { binding with passing := false } :: outer := by
    intro binding scopes home outer hdrop
    induction scopes with
    | nil => cases hdrop
    | cons scope more ih =>
      cases hholds : scope.kind.holdsVariables with
      | true => simp_all [putVar]
      | false => simp_all [putVar]
  have hold : ∀ (scopes : List Scope) {home : Scope} {outer : List Scope},
      scopes.dropWhile (fun scope => !scope.kind.holdsVariables) = home :: outer →
      ((scopes.takeWhile fun scope => !scope.kind.holdsVariables) ++ [home]).findSome?
        (fun scope => scope.find? id.name) = oldVar? id.name scopes := by
    intro scopes home outer hdrop
    induction scopes with
    | nil => cases hdrop
    | cons scope more ih =>
      cases hholds : scope.kind.holdsVariables with
      | true => simp_all [oldVar?]
      | false =>
        cases hfind : scope.find? id.name with
        | none => simp_all [oldVar?]
        | some => simp_all [oldVar?]
  unfold bindVar
  dsimp only
  split
  next hdrop =>
    obtain ⟨scope, hscope, hholds⟩ := h
    have := List.dropWhile_eq_nil_iff.1 hdrop scope hscope
    simp [hholds] at this
  next home outer hdrop => rw [hput _ _ hdrop, hold _ hdrop]

namespace Sees

variable {use : Use} {bound : Option Binding} {sight : Sight} {scopes : List Scope}
  {analysis : Analysis} {id : Ident} {binding : Binding}

/-- A variable always belongs to some scope. -/
theorem exists_holds (h : Sees use bound sight scopes) :
    ∃ scope ∈ scopes, scope.kind.holdsVariables = true := by
  induction h with
  | bottom scope hholds _ => exact ⟨scope, .head _, hholds⟩
  | inside scope _ _ ih =>
    obtain ⟨other, hother, hholds⟩ := ih
    exact ⟨other, .tail _ hother, hholds⟩

theorem putVar_of_ne (h : Sees use bound sight scopes) (hname : binding.id.name ≠ use.id.name) :
    Sees use bound sight (putVar binding scopes) := by
  induction h with
  | bottom scope hholds hbound =>
    rw [putVar, if_pos hholds]
    exact (bottom scope hholds hbound).put_of_ne hname
  | inside scope hkinds h ih =>
    unfold putVar
    split
    · exact (inside scope hkinds h).put_of_ne hname
    · exact (inside scope hkinds ih).put_of_ne hname

theorem putVar (h : Sees use bound sight scopes) (hname : binding.id.name = use.id.name)
    (hkinds : binding.kinds ≠ []) :
    Sees use (if sight.reaches then some { binding with passing := false } else bound)
      sight.bindVar (putVar binding scopes) := by
  induction h with
  | bottom scope hholds hbound =>
    rw [Script.putVar, if_pos hholds]
    exact (bottom scope hholds hbound).put_bottom rfl hname
  | @inside scope scopes inner waits _ h ih =>
    -- Whether the scope is the function around or lies between, the name is bound in it.
    have hput : ∀ passing, ∀ found ∈ (scope.put { binding with passing }).find? use.id.name,
        found.kinds ≠ [] := by
      intro passing found hfound
      rw [Scope.find?_put, if_pos hname] at hfound
      cases hfound
      exact hkinds
    have hview : ∀ passing, (scope.put { binding with passing }).view use =
        { scope.view use with passing := some passing } := fun passing =>
      @view_put use { binding with passing } hname scope
    cases hholds : scope.kind.holdsVariables with
    | true =>
      have := inside (scope.put { binding with passing := false }) (hput false) h
      rw [hview] at this
      simpa [Script.putVar, Sight.bindVar, Sight.bindVarIn, Sight.reaches, Scope.view, hholds]
        using this
    | false =>
      have := inside (scope.put { binding with passing := true }) (hput true) ih
      rw [hview] at this
      simpa [Script.putVar, Sight.bindVar, Sight.bindVarIn, Sight.reaches, Scope.view, hholds]
        using this

theorem oldVar? (h : Sees use bound sight scopes) (hreaches : sight.reaches = true) :
    if sight.meets then
      ∃ old, oldVar? use.id.name scopes = some old ∧ old.kinds ≠ []
    else oldVar? use.id.name scopes = bound := by
  induction h with
  | bottom scope hholds hbound =>
    have : Script.oldVar? use.id.name [scope] = bound := by
      rw [Script.oldVar?, if_pos hholds, Option.or_none, hbound]
    simpa [Sight.meets] using this
  | @inside scope scopes inner waits hkinds h ih =>
    have hreaches : scope.kind.holdsVariables = false ∧ Sight.reaches ⟨inner, waits⟩ = true := by
      simpa [Sight.reaches, Scope.view] using hreaches
    rw [Script.oldVar?, hreaches.1]
    cases hfind : scope.find? use.id.name with
    | some old =>
      have := hkinds old hfind
      simpa [Sight.meets, Scope.view, hfind] using this
    | none => simpa [Sight.meets, Scope.view, hfind] using ih hreaches.2

/-- Another name is bound as a variable. -/
theorem bindVar_of_ne (h : Sees use bound sight analysis.scopes) (hname : id.name ≠ use.id.name) :
    Sees use bound sight (analysis.bindVar id).scopes := by
  rw [analysis.bindVar_scopes id h.exists_holds]
  exact h.putVar_of_ne (by rwa [Analysis.name_merge fun _ => name_of_oldVar?])

/-- The name is bound as a variable, in the scope of the function around. -/
theorem bindVar (h : Sees use bound sight analysis.scopes) (hname : id.name = use.id.name) :
    Sees use
      (if sight.reaches then
        some { Analysis.merge id .var (Script.oldVar? id.name analysis.scopes) with
          passing := false }
      else bound) sight.bindVar (analysis.bindVar id).scopes := by
  have hmerge : (Analysis.merge id .var (Script.oldVar? id.name analysis.scopes)).id.name =
      use.id.name := by
    rwa [Analysis.name_merge fun _ => name_of_oldVar?]
  rw [analysis.bindVar_scopes id h.exists_holds]
  exact h.putVar hmerge (merge_kinds_ne _ _ _)

/-- The name is bound as a variable of a function within the outermost scope. -/
theorem bindVar_inside (h : Sees use bound sight analysis.scopes) (hname : id.name = use.id.name)
    (hreaches : sight.reaches = false) :
    Sees use bound sight.bindVar (analysis.bindVar id).scopes := by
  have hbound := h.bindVar hname
  rwa [hreaches] at hbound

/-- The name is bound as a variable of the outermost scope. -/
theorem bindVar_bottom (h : Sees use bound sight analysis.scopes) (hname : id.name = use.id.name)
    (hreaches : sight.reaches = true) :
    ∃ old, (if sight.meets then ∃ binding, old = some binding ∧ binding.kinds ≠ []
        else old = bound) ∧
      Sees use (some { Analysis.merge id .var old with passing := false }) sight.bindVar
        (analysis.bindVar id).scopes := by
  refine ⟨Script.oldVar? id.name analysis.scopes, ?_, ?_⟩
  · rw [hname]
    exact h.oldVar? hreaches
  · have hbound := h.bindVar hname
    rwa [hreaches] at hbound

/-- Another name is bound, in whatever way. -/
theorem bind_of_ne (h : Sees use bound sight analysis.scopes) (hname : id.name ≠ use.id.name)
    (kind : BindingKind) : Sees use bound sight (analysis.step (.bind id kind)).scopes := by
  cases kind with
  | var => exact h.bindVar_of_ne hname
  | _ => exact h.bindHere_of_ne hname _

end Sees

/-! ### Names that are bound in the outermost scope -/

/-- Names that are bound one after another. -/
def bindAll (binds : List (Ident × BindingKind)) : List Occurrence :=
  binds.map fun bind => .bind bind.1 bind.2

/-- What a name is bound to after some bindings of names. -/
def boundBy (name : String) (binds : List (Ident × BindingKind)) : Option Binding :=
  (binds.filter fun bind => bind.1.name == name).foldl
    (fun old bind => some { Analysis.merge bind.1 bind.2 old with passing := false }) none

theorem boundBy_of_filter {name : String} {binds : List (Ident × BindingKind)} {id : Ident}
    {kind : BindingKind} (h : (binds.filter fun bind => bind.1.name == name) = [(id, kind)]) :
    boundBy name binds = some ⟨id, [kind], false⟩ := by
  rw [boundBy, h]
  rfl

theorem boundBy_of_mem {name : String} {binds : List (Ident × BindingKind)}
    {bind : Ident × BindingKind} (h : bind ∈ binds) (hname : bind.1.name = name) :
    ∃ given, boundBy name binds = some given ∧ given.kinds ≠ [] := by
  have hmem : bind ∈ binds.filter fun bind => bind.1.name == name :=
    List.mem_filter.2 ⟨h, beq_iff_eq.2 hname⟩
  unfold boundBy
  generalize (binds.filter fun bind => bind.1.name == name) = those at hmem
  induction those using List.reverseRecOn with
  | nil => cases hmem
  | append_singleton some last _ =>
    rw [List.foldl_append]
    exact ⟨_, rfl, Sees.merge_kinds_ne _ _ _⟩

theorem boundBy_snoc (name : String) (binds : List (Ident × BindingKind))
    (bind : Ident × BindingKind) :
    boundBy name (binds ++ [bind]) =
      if bind.1.name = name then
        some { Analysis.merge bind.1 bind.2 (boundBy name binds) with passing := false }
      else boundBy name binds := by
  unfold boundBy
  rw [List.filter_append, List.foldl_append]
  split
  next h => simp [h]
  next h => simp [h]

theorem boundBy_passing {name : String} {binds : List (Ident × BindingKind)} {binding : Binding}
    (h : boundBy name binds = some binding) : binding.passing = false := by
  induction binds using List.reverseRecOn with
  | nil => cases h
  | append_singleton binds bind ih =>
    rw [boundBy_snoc] at h
    split at h
    · cases h
      rfl
    · exact ih h

/-- A name that is bound outside of all inner scopes. -/
theorem Sees.bind_bottom {use : Use} {bound : Option Binding} {sight : Sight}
    {analysis : Analysis} (h : Sees use bound sight analysis.scopes) (hdepth : sight.depth = 0)
    (hpassing : ∀ binding ∈ bound, binding.passing = false) (id : Ident) (kind : BindingKind) :
    Sees use
      (if id.name = use.id.name then
        some { Analysis.merge id kind bound with passing := false } else bound)
      sight (analysis.step (.bind id kind)).scopes := by
  have hinner : sight.inner = [] := List.length_eq_zero_iff.1 hdepth
  -- Where no inner scope is open, a name is bound in the outermost one, of whatever kind it is.
  have hhere : Sees use
      (if id.name = use.id.name then
        some { Analysis.merge id kind bound with passing := false } else bound)
      sight (analysis.bindHere id kind).scopes := by
    split
    next hname =>
      have hmerge : { Analysis.merge id kind bound with passing := false } =
          Analysis.merge id kind bound := by
        cases bound with
        | none => rfl
        | some old =>
          have : old.passing = false := hpassing old rfl
          simp [Analysis.merge, this]
      rw [hmerge]
      exact h.bindHere_bottom hdepth hname kind
    next hname => exact h.bindHere_of_ne hname kind
  cases kind with
  | var =>
    split
    next hname =>
      have hreaches : sight.reaches = true := by simp [Sight.reaches, hinner]
      have hmeets : sight.meets = false := by simp [Sight.meets, hinner]
      have hsight : sight.bindVar = sight := by
        obtain ⟨inner, waits⟩ := sight
        subst hinner
        rfl
      obtain ⟨old, hold, hsees⟩ := h.bindVar_bottom hname hreaches
      rw [hmeets, if_neg Bool.false_ne_true] at hold
      subst hold
      rwa [hsight] at hsees
    next hname => exact h.bindVar_of_ne hname
  | _ => exact hhere

/-- Names that are bound one after another outside of all inner scopes. -/
theorem Sees.binds {use : Use} {sight : Sight} {analysis : Analysis}
    (h : Sees use none sight analysis.scopes) (hdepth : sight.depth = 0)
    (binds : List (Ident × BindingKind)) :
    Sees use (boundBy use.id.name binds) sight
      ((bindAll binds).foldl Analysis.step analysis).scopes := by
  unfold bindAll
  induction binds using List.reverseRecOn with
  | nil => exact h
  | append_singleton binds bind ih =>
    rw [List.map_append, List.foldl_append, boundBy_snoc]
    exact ih.bind_bottom hdepth (fun _ => boundBy_passing) bind.1 bind.2

/-- Other names that are bound one after another. -/
theorem Sees.binds_of_ne {use : Use} {bound : Option Binding} {sight : Sight} {analysis : Analysis}
    (h : Sees use bound sight analysis.scopes) {binds : List (Ident × BindingKind)}
    (hne : ∀ bind ∈ binds, bind.1.name ≠ use.id.name) :
    Sees use bound sight ((bindAll binds).foldl Analysis.step analysis).scopes := by
  induction binds generalizing analysis with
  | nil => exact h
  | cons bind more ih =>
    obtain ⟨hfirst, hmore⟩ := List.forall_mem_cons.1 hne
    exact ih (h.bind_of_ne hfirst bind.2) hmore

theorem boundBy_eq_none {name : String} {binds : List (Ident × BindingKind)}
    (h : ∀ bind ∈ binds, bind.1.name ≠ name) : boundBy name binds = none := by
  have : (binds.filter fun bind => bind.1.name == name) = [] :=
    List.filter_eq_nil_iff.2 fun bind hbind => by simpa using h bind hbind
  rw [boundBy, this]
  rfl

/-- A scope that starts outside of all others. -/
theorem Sees.start (use : Use) {kind : ScopeKind} (h : kind.holdsVariables = true) :
    Sees use none ⟨[], false⟩ (Analysis.start.step (.enter kind)).scopes := by
  have := @Sees.bottom use none ⟨kind, [], []⟩ h rfl
  rwa [decide_eq_false List.not_mem_nil] at this

/-- A use that has not occurred is not looked up. -/
theorem Sees.settle_bottom {use : Use} {bound : Option Binding} {analysis : Analysis}
    (h : Sees use bound ⟨[], false⟩ analysis.scopes) :
    Sees use bound ⟨[], false⟩ (analysis.step .settle).scopes := by
  unfold Analysis.step Analysis.lookUp
  generalize analysis.scopes = scopes at h
  generalize hsight : (⟨[], false⟩ : Sight) = sight at h
  cases h with
  | inside => cases hsight
  | bottom scope hholds hbound =>
    rw [← hsight]
    have := @Sees.bottom use bound { scope with waiting := [] } hholds hbound
    rwa [decide_eq_false List.not_mem_nil] at this

/-! ### What a use means -/

/-- A use in a scope means what that scope binds by its name: it still waits when all scopes
    within have ended, so none of those binds it. -/
def MeansOutermost (kind : ScopeKind) (inside : List Occurrence) (use : Use) (binding : Binding) :
    Prop :=
  ∃ scope, (Analysis.ofOccurrences (.enter kind :: inside)).scopes = [scope] ∧
    use ∈ scope.waiting ∧ scope.find? use.id.name = some binding

/-- A use in a scope means a global: it still waits when all scopes within have ended, and the scope
    does not bind its name either. -/
def MeansGlobal (kind : ScopeKind) (inside : List Occurrence) (use : Use) : Prop :=
  ∃ scope, (Analysis.ofOccurrences (.enter kind :: inside)).scopes = [scope] ∧
    use ∈ scope.waiting ∧ scope.find? use.id.name = none

theorem Sees.meansOutermost_iff {kind : ScopeKind} {inside : List Occurrence} {use : Use}
    {bound : Option Binding} {sight : Sight} {binding : Binding}
    (h : Sees use bound sight (Analysis.ofOccurrences (.enter kind :: inside)).scopes)
    (hdepth : sight.depth = 0) :
    MeansOutermost kind inside use binding ↔ sight.waits = true ∧ bound = some binding := by
  obtain ⟨scope, hscopes, hwaits, rfl⟩ := h.eq_bottom hdepth
  unfold MeansOutermost
  rw [hscopes, ← hwaits]
  simp

theorem Sees.meansGlobal_iff {kind : ScopeKind} {inside : List Occurrence} {use : Use}
    {bound : Option Binding} {sight : Sight}
    (h : Sees use bound sight (Analysis.ofOccurrences (.enter kind :: inside)).scopes)
    (hdepth : sight.depth = 0) :
    MeansGlobal kind inside use ↔ sight.waits = true ∧ bound = none := by
  obtain ⟨scope, hscopes, hwaits, rfl⟩ := h.eq_bottom hdepth
  unfold MeansGlobal
  rw [hscopes, ← hwaits]
  simp

/-- Names that are used outside of all inner scopes. -/
theorem Sees.foldl_use {use : Use} {bound : Option Binding} {sight : Sight} {analysis : Analysis}
    (h : Sees use bound sight analysis.scopes) (hdepth : sight.depth = 0) (uses : List Use) :
    ∃ later, later.depth = 0 ∧ Sees use bound later (uses.foldl Analysis.use analysis).scopes ∧
      (sight.waits = true ∨ use ∈ uses → later.waits = true) := by
  induction uses generalizing sight analysis with
  | nil => exact ⟨sight, hdepth, h, fun hor => hor.resolve_right List.not_mem_nil⟩
  | cons other more ih =>
    obtain ⟨later, hlater, hsees, hwaits⟩ := ih (h.used other) (by rw [Sight.depth_wait, hdepth])
    refine ⟨later, hlater, hsees, fun hor => hwaits ?_⟩
    obtain ⟨inner, waits⟩ := sight
    obtain rfl := List.length_eq_zero_iff.1 hdepth
    rcases hor with hor | hor
    · exact .inl (by simpa [Sight.wait] using .inr hor)
    · rcases List.mem_cons.1 hor with rfl | hor
      · exact .inl (by simp [Sight.wait])
      · exact .inr hor

end Bundler.Script

import Bundler.Lowering.Plan
import Bundler.Proofs.Script.Sight
import Bundler.Proofs.Script.Uses

/-!
# The names of a lowered module

A lowered module is the body of a function: its imports are gone, the variables for other
modules are bound, and imported names are called by those. What such a variable means where
an imported name was used is told by following that use through the module and the lowered
module at once.

* `MeansOutermost`: a use means what the outermost scope binds;
* `Plan.inside`: what occurs in a lowered module;
* `Lockstep`: relations of a module and the lowered module that all but imports keep;
* `Abreast`: how far a module and the lowered module are alike for a use;
* `Abreast.finish`: they are alike for it up to their ends;
* `Plan.means_iff`, `Plan.means_fresh`: what a variable for another module means at a use.
-/

namespace Bundler.Lowering

open Script

/-! ### What occurs in a lowered module -/

/-- The names that a statement binds. -/
def Statement.binds : Statement → List (String × BindingKind)
  | .bindRequire holder _ => [(holder, .var)]
  | _ => []

/-- The names that a change binds. -/
def Change.binds : Change → List (String × BindingKind)
  | .statements written => written.flatMap Statement.binds
  | .functionName _ name => [(name, .function false false)]
  | _ => []

/-- The names that a plan binds, each where the change stands. -/
def Plan.binds (plan : Plan) : List (Ident × BindingKind) :=
  plan.changes.flatMap fun (span, change) =>
    change.binds.map fun (name, kind) => (⟨name, span⟩, kind)

/-- What an occurrence in a module becomes, with other names for the uses. Nothing is imported,
    and what is exported is used in a function of its own. -/
def lowered (name : Ident → String) : Occurrence → List Occurrence
  | .bind _ .imported => []
  | .use id .exported =>
    [.enter .function, .settle, .use ⟨name id, id.span⟩ .exported, .leave]
  | occurrence => [occurrence.rename name]

/-- The parameters that the loader hands to a lowered module. -/
def loaderBinds : List (Ident × BindingKind) :=
  loaderNames.map fun name => (⟨name, ⟨0, 0⟩⟩, .param false)

/-- The loader binds each of its names once. -/
theorem boundBy_loaderBinds {name : String} (h : name ∈ loaderNames) :
    boundBy name loaderBinds = some ⟨⟨name, ⟨0, 0⟩⟩, [.param false], false⟩ := by
  have hall : ∀ name ∈ loaderNames, (loaderBinds.filter fun bind => bind.1.name == name) =
      [(⟨name, ⟨0, 0⟩⟩, .param false)] := by decide
  exact boundBy_of_filter (hall name h)

theorem boundBy_loaderBinds_of_notMem {name : String} (h : name ∉ loaderNames) :
    boundBy name loaderBinds = none := by
  apply boundBy_eq_none
  intro bind hbind hname
  obtain ⟨name, hmem, rfl⟩ := List.mem_map.1 hbind
  exact h (hname ▸ hmem)

/-- What is bound in a lowered module before anything else: the loader hands it its parameters,
    and the names that are added are bound. -/
def Plan.prelude (plan : Plan) : List Occurrence :=
  bindAll loaderBinds ++ [.settle] ++ bindAll plan.binds

/-- What occurs in a lowered module, without its own scope, with other names for the uses. -/
def Plan.inside (plan : Plan) (program : Program) (name : Ident → String) : List Occurrence :=
  plan.prelude ++ program.inside.flatMap (lowered name)

/-! ### A module and the lowered module -/

/-- What a name is bound to in the outermost scope of a module and of the lowered module, after
    some imports of the name, where the lowered module binds it at its start. -/
inductive Standing (imports : List Ident) (given : Binding) :
    Option Binding → Option Binding → Prop where
  /-- The module has not bound the name. -/
  | before (h : imports = []) : Standing imports given none (some given)
  /-- The module has imported the name once, and bound it in no other way. -/
  | imported (id : Ident) (h : imports = [id]) :
    Standing imports given (some ⟨id, [.imported], false⟩) (some given)
  /-- The module has bound the name otherwise. -/
  | mixed {one other : Binding} (hone : ∃ kind ∈ one.kinds, kind ≠ .imported)
    (hother : 2 ≤ other.kinds.length) : Standing imports given (some one) (some other)

namespace Standing

variable {imports : List Ident} {given : Binding} {one other : Option Binding}

/-- The name is bound in both, and not by an import. -/
theorem bind (h : Standing imports given one other) (hgiven : given.kinds ≠ []) {id id' : Ident}
    {kind : BindingKind} (hkind : kind ≠ .imported) {now later : Binding}
    (hnow : now.kinds = (Analysis.merge id kind one).kinds)
    (hlater : later.kinds = (Analysis.merge id' kind other).kinds) :
    Standing imports given (some now) (some later) := by
  have hlength := List.length_pos_iff.2 hgiven
  cases h with
  | before _ =>
    exact mixed (hnow ▸ ⟨kind, .head _, hkind⟩) (hlater ▸ Nat.succ_le_succ hlength)
  | imported _ _ =>
    exact mixed (hnow ▸ ⟨kind, .head _, hkind⟩) (hlater ▸ Nat.succ_le_succ hlength)
  | mixed _ hother =>
    exact mixed (hnow ▸ ⟨kind, .head _, hkind⟩) (hlater ▸ Nat.le_succ_of_le hother)

/-- The name is imported once more. Where it was imported before, that breaks a rule. -/
theorem importAgain (h : Standing imports given one other) (id : Ident) (scope : ScopeKind)
    (hok : Analysis.complain scope .imported one = []) :
    Standing (imports ++ [id]) given (some (Analysis.merge id .imported one)) other := by
  cases h with
  | before h =>
    subst h
    exact imported id rfl
  | imported first h => simp [Analysis.complain, BindingKind.conflicts] at hok
  | mixed hone hother =>
    obtain ⟨kind, hmem, hkind⟩ := hone
    exact mixed ⟨kind, .tail _ hmem, hkind⟩ hother

end Standing

/-- A module and the lowered module, as far as a use is concerned, after some imports of its
    name: the use has the same sight in both, from so deep within the outermost scope. -/
structure Abreast (use : Use) (imports : List Ident) (given : Binding) (depth : Nat)
    (one other : Analysis) : Prop where
  /-- What the use sees, and what the outermost scopes bind. -/
  sees : ∃ sight bound bound', Sees use bound sight one.scopes ∧
    Sees use bound' sight other.scopes ∧ sight.depth = depth ∧ Standing imports given bound bound'

namespace Abreast

variable {use : Use} {imports : List Ident} {given : Binding} {depth : Nat}
  {one other : Analysis}

theorem enter (h : Abreast use imports given depth one other) (kind : ScopeKind) :
    Abreast use imports given (depth + 1) (one.step (.enter kind)) (other.step (.enter kind)) := by
  obtain ⟨sight, bound, bound', hone, hother, rfl, hstanding⟩ := h
  exact ⟨sight.enter kind, bound, bound', hone.enter kind, hother.enter kind, rfl, hstanding⟩

theorem leave (h : Abreast use imports given (depth + 1) one other) :
    Abreast use imports given depth (one.step .leave) (other.step .leave) := by
  obtain ⟨sight, bound, bound', hone, hother, hdepth, hstanding⟩ := h
  have hpos : 0 < sight.depth := by omega
  exact ⟨sight.leave, bound, bound', hone.leave hpos, hother.leave hpos,
    by rw [Sight.depth_leave, hdepth]; rfl, hstanding⟩

theorem settle (h : Abreast use imports given (depth + 1) one other) :
    Abreast use imports given (depth + 1) (one.step .settle) (other.step .settle) := by
  obtain ⟨sight, bound, bound', hone, hother, hdepth, hstanding⟩ := h
  have hpos : 0 < sight.depth := by omega
  exact ⟨sight.settle, bound, bound', hone.settle hpos, hother.settle hpos,
    by rw [Sight.depth_settle, hdepth], hstanding⟩

theorem used (h : Abreast use imports given depth one other) (another : Use) :
    Abreast use imports given depth (one.use another) (other.use another) := by
  obtain ⟨sight, bound, bound', hone, hother, hdepth, hstanding⟩ := h
  exact ⟨_, bound, bound', hone.used another, hother.used another,
    by rw [Sight.depth_wait, hdepth], hstanding⟩

/-- A name is bound in both, and not by an import. -/
theorem bind (h : Abreast use imports given depth one other) (hgiven : given.kinds ≠ [])
    (id : Ident) {kind : BindingKind} (hkind : kind ≠ .imported) :
    Abreast use imports given depth (one.step (.bind id kind)) (other.step (.bind id kind)) := by
  obtain ⟨sight, bound, bound', hone, hother, hdepth, hstanding⟩ := h
  by_cases hvar : kind = .var
  · subst hvar
    by_cases hname : id.name = use.id.name
    · cases hreaches : sight.reaches with
      | false =>
        exact ⟨_, bound, bound', hone.bindVar_inside hname hreaches,
          hother.bindVar_inside hname hreaches, by rw [Sight.depth_bindVar, hdepth], hstanding⟩
      | true =>
        obtain ⟨old, hold, hone⟩ := hone.bindVar_bottom hname hreaches
        obtain ⟨older, holder, hother⟩ := hother.bindVar_bottom hname hreaches
        refine ⟨_, _, _, hone, hother, by rw [Sight.depth_bindVar, hdepth], ?_⟩
        split at hold
        next hmeets =>
          rw [if_pos hmeets] at holder
          obtain ⟨old, rfl, -⟩ := hold
          obtain ⟨older, rfl, hkinds⟩ := holder
          exact .mixed ⟨.var, .head _, hkind⟩
            (Nat.succ_le_succ (List.length_pos_iff.2 hkinds))
        next hmeets =>
          rw [if_neg hmeets] at holder
          subst hold holder
          exact hstanding.bind hgiven hkind rfl rfl
    · exact ⟨sight, bound, bound', hone.bindVar_of_ne hname, hother.bindVar_of_ne hname, hdepth,
        hstanding⟩
  · rw [Analysis.step_bind_of_ne hvar, Analysis.step_bind_of_ne hvar]
    by_cases hname : id.name = use.id.name
    · rcases Nat.eq_zero_or_pos sight.depth with hzero | hpos
      · exact ⟨sight, _, _, hone.bindHere_bottom hzero hname kind,
          hother.bindHere_bottom hzero hname kind, hdepth, hstanding.bind hgiven hkind rfl rfl⟩
      · exact ⟨_, bound, bound', hone.bindHere_inside hpos hname kind,
          hother.bindHere_inside hpos hname kind, by rw [Sight.depth_bindHere, hdepth], hstanding⟩
    · exact ⟨sight, bound, bound', hone.bindHere_of_ne hname kind,
        hother.bindHere_of_ne hname kind, hdepth, hstanding⟩

end Abreast

theorem lowered_bind (name : Ident → String) (id : Ident) {kind : BindingKind}
    (h : kind ≠ .imported) : lowered name (.bind id kind) = [.bind id kind] := by
  cases kind with
  | imported => exact absurd rfl h
  | _ => rfl

/-- A name that is used in a function of its own waits as if it were used around it. -/
theorem foldl_getter {analysis : Analysis} (h : analysis.scopes ≠ []) (id : Ident) :
    [.enter .function, .settle, .use id .exported, .leave].foldl Analysis.step analysis =
      analysis.use ⟨id, .exported⟩ := by
  obtain ⟨scopes, top, found, issues⟩ := analysis
  cases scopes with
  | nil => exact absurd rfl h
  | cons scope outer => rfl

theorem Abreast.lowered_use {use : Use} {imports : List Ident} {given : Binding} {depth : Nat}
    {one other : Analysis} (h : Abreast use imports given depth one other)
    (name : Ident → String) (id : Ident) (role : Role) :
    Abreast use imports given depth (one.step (Occurrence.rename name (.use id role)))
      ((lowered name (.use id role)).foldl Analysis.step other) := by
  have hused := h.used ⟨⟨name id, id.span⟩, role⟩
  cases role with
  | exported =>
    obtain ⟨_, _, _, _, hother, -, -⟩ := h
    rw [lowered, foldl_getter hother.ne_nil]
    exact hused
  | _ => exact hused

/-- A relation of a module and the lowered module, from so deep within the outermost scope, that is
    kept whatever occurs in both but imports. -/
structure Lockstep (name : Ident → String) (alike : Nat → Analysis → Analysis → Prop) : Prop where
  /-- A scope starts. -/
  enter : ∀ ⦃depth one other⦄ kind, alike depth one other →
    alike (depth + 1) (one.step (.enter kind)) (other.step (.enter kind))
  /-- A scope ends. -/
  leave : ∀ ⦃depth one other⦄, alike (depth + 1) one other →
    alike depth (one.step .leave) (other.step .leave)
  /-- What waits in a scope is looked up. -/
  settle : ∀ ⦃depth one other⦄, alike (depth + 1) one other →
    alike (depth + 1) (one.step .settle) (other.step .settle)
  /-- A name is bound, and not by an import. -/
  bind : ∀ ⦃depth one other⦄ id ⦃kind⦄, kind ≠ .imported → alike depth one other →
    alike depth (one.step (.bind id kind)) (other.step (.bind id kind))
  /-- A name is used. -/
  use : ∀ ⦃depth one other⦄ id role, alike depth one other →
    alike depth (one.step (Occurrence.rename name (.use id role)))
      ((lowered name (.use id role)).foldl Analysis.step other)
  /-- A rule that is not about names is broken. -/
  broken : ∀ ⦃depth one other⦄ issue, alike depth one other →
    alike depth (one.step (.broken issue)) (other.step (.broken issue))

/-- A part of a module without imports keeps such a relation. -/
theorem Lockstep.walk {name : Ident → String} {alike : Nat → Analysis → Analysis → Prop}
    (h : Lockstep name alike) {ids : List Ident} {part : List Occurrence} (hpart : Walk ids part)
    {depth : Nat} {one other : Analysis} (halike : alike depth one other) :
    alike depth ((part.map (.rename name)).foldl Analysis.step one)
      ((part.flatMap (lowered name)).foldl Analysis.step other) := by
  induction hpart generalizing depth one other with
  | skip => exact halike
  | append _ _ hf hr =>
    rw [List.map_append, List.flatMap_append, List.foldl_append, List.foldl_append]
    exact hr (hf halike)
  | bind id hkind =>
    rw [List.flatMap_singleton, lowered_bind name id hkind]
    exact h.bind id hkind halike
  | use id role =>
    rw [List.flatMap_singleton]
    exact h.use id role halike
  | unsupported => exact halike
  | broken => exact h.broken _ halike
  | scope kind _ ih =>
    simp only [List.map_append, List.flatMap_append, List.foldl_append]
    exact h.leave (ih (h.enter kind halike))
  | function _ _ hp hc =>
    simp only [List.map_append, List.flatMap_append, List.foldl_append]
    exact h.leave (hc (h.settle (hp (h.enter .function halike))))

/-- Without imports a module and the lowered module stay abreast. -/
theorem Abreast.lockstep {use : Use} {imports : List Ident} {given : Binding}
    (name : Ident → String) (hgiven : given.kinds ≠ []) :
    Lockstep name (Abreast use imports given) where
  enter _ _ _ kind h := h.enter kind
  leave _ _ _ h := h.leave
  settle _ _ _ h := h.settle
  bind _ _ _ id _ hkind h := h.bind hgiven id hkind
  use _ _ _ id role h := h.lowered_use name id role
  broken _ _ _ _ h := ⟨h.sees⟩

/-! ### Imports -/

/-- The imports of a name. -/
def importsIn (name : String) (occurrences : List Occurrence) : List Ident :=
  occurrences.filterMap fun occurrence =>
    match occurrence with
    | .bind id .imported => if id.name = name then some id else none
    | _ => none

theorem importsIn_append (name : String) (first rest : List Occurrence) :
    importsIn name (first ++ rest) = importsIn name first ++ importsIn name rest :=
  List.filterMap_append

/-- Within statements that are no imports nothing is imported. -/
theorem importsIn_walk {ids : List Ident} {part : List Occurrence} (h : Walk ids part)
    (name : String) : importsIn name part = [] := by
  induction h with
  | skip | use | unsupported | broken => rfl
  | append _ _ hf hr => rw [importsIn_append, hf, hr]; rfl
  | bind id hkind =>
    rename_i kind
    cases kind with
    | imported => exact absurd rfl hkind
    | _ => rfl
  | scope kind _ ih =>
    rw [importsIn_append, importsIn_append, ih]
    rfl
  | function _ _ hp hc =>
    rw [importsIn_append, importsIn_append, importsIn_append, importsIn_append, hp, hc]
    rfl

/-- A part of a module that leaves a module and the lowered module abreast, outside of all inner
    scopes, if it breaks no rules about names. -/
def LeavesAbreast (name : Ident → String) (use : Use) (given : Binding) (part : List Occurrence) :
    Prop :=
  ∀ ⦃imports one other⦄, Abreast use imports given 0 one other →
    ((part.map (.rename name)).foldl Analysis.step one).issues = [] →
    Abreast use (imports ++ importsIn use.id.name part) given 0
      ((part.map (.rename name)).foldl Analysis.step one)
      ((part.flatMap (lowered name)).foldl Analysis.step other)

namespace LeavesAbreast

variable {name : Ident → String} {use : Use} {given : Binding} {first rest : List Occurrence}

theorem walk {ids : List Ident} (h : Walk ids first) (hgiven : given.kinds ≠ []) :
    LeavesAbreast name use given first := by
  intro imports one other hab _
  rw [importsIn_walk h, List.append_nil]
  exact (Abreast.lockstep name hgiven).walk h hab

theorem append (hf : LeavesAbreast name use given first) (hr : LeavesAbreast name use given rest) :
    LeavesAbreast name use given (first ++ rest) := by
  intro imports one other hab hissues
  rw [List.map_append, List.foldl_append] at hissues ⊢
  rw [List.flatMap_append, List.foldl_append, importsIn_append, ← List.append_assoc]
  exact hr (hf hab (Analysis.issues_of_foldl hissues)) hissues

theorem bindImported (id : Ident) : LeavesAbreast name use given [.bind id .imported] := by
  intro imports one other hab hissues
  obtain ⟨sight, bound, bound', hone, hother, hdepth, hstanding⟩ := hab
  by_cases hname : id.name = use.id.name
  · have : importsIn use.id.name [.bind id .imported] = [id] := by
      simp [importsIn, hname]
    rw [this]
    have hone' := hone.bindHere_bottom hdepth hname .imported
    -- In the module no rule was broken by the import, so it was not imported before.
    obtain ⟨scope, hscopes, -, rfl⟩ := hone.eq_bottom hdepth
    have hissues : (one.bindHere id .imported).issues = [] := hissues
    unfold Analysis.bindHere at hissues
    rw [hscopes, hname] at hissues
    have hok := (List.append_eq_nil_iff.1 hissues).1
    exact ⟨sight, _, bound', hone', hother, hdepth, hstanding.importAgain id _ hok⟩
  · have : importsIn use.id.name [.bind id .imported] = [] := by
      simp [importsIn, hname]
    rw [this, List.append_nil]
    exact ⟨sight, bound, bound', hone.bindHere_of_ne hname .imported, hother, hdepth, hstanding⟩

/-- A module and the lowered module are abreast up to their ends. -/
theorem inside (hgiven : given.kinds ≠ []) (program : Program) :
    LeavesAbreast name use given program.inside :=
  Program.inside_induction (fun h => walk h hgiven) bindImported append program

end LeavesAbreast

/-! ### Names that nothing binds -/

/-- Nothing that occurs binds a name. -/
def Unbound (name : String) (occurrences : List Occurrence) : Prop :=
  ∀ id kind, .bind id kind ∈ occurrences → id.name ≠ name

theorem unbound_append {name : String} {first rest : List Occurrence} :
    Unbound name (first ++ rest) ↔ Unbound name first ∧ Unbound name rest := by
  simp only [Unbound, List.mem_append]
  exact ⟨fun h => ⟨fun id kind ho => h id kind (.inl ho), fun id kind ho => h id kind (.inr ho)⟩,
    fun h id kind ho => ho.elim (h.1 id kind) (h.2 id kind)⟩

/-- A use whose name no scope binds, and that waits if it has occurred. -/
structure Awaits (use : Use) (depth : Nat) (occurred : Prop) (analysis : Analysis) : Prop where
  /-- What the use sees. -/
  sees : ∃ sight, Sees use none sight analysis.scopes ∧ sight.depth = depth ∧ sight.Unmet ∧
    (occurred → sight.Waits)

namespace Awaits

variable {use : Use} {depth : Nat} {occurred : Prop} {analysis : Analysis}

theorem enter (h : Awaits use depth occurred analysis) (kind : ScopeKind) :
    Awaits use (depth + 1) occurred (analysis.step (.enter kind)) := by
  obtain ⟨sight, hsees, rfl, hunmet, hwaits⟩ := h
  refine ⟨sight.enter kind, hsees.enter kind, rfl, ?_, ?_⟩
  · simpa [Sight.Unmet, Sight.enter] using hunmet
  · intro ho
    simpa [Sight.Waits, Sight.enter] using hwaits ho

theorem leave (h : Awaits use (depth + 1) occurred analysis) :
    Awaits use depth occurred (analysis.step .leave) := by
  obtain ⟨sight, hsees, hdepth, hunmet, hwaits⟩ := h
  exact ⟨sight.leave, hsees.leave (by omega), by rw [Sight.depth_leave, hdepth]; rfl,
    hunmet.leave, fun ho => (hwaits ho).leave hunmet⟩

theorem settle (h : Awaits use (depth + 1) occurred analysis) :
    Awaits use (depth + 1) occurred (analysis.step .settle) := by
  obtain ⟨sight, hsees, hdepth, hunmet, hwaits⟩ := h
  have hpos : 0 < sight.depth := by omega
  exact ⟨sight.settle, hsees.settle hpos, by rw [Sight.depth_settle, hdepth],
    hunmet.settle, fun ho => (hwaits ho).settle hunmet hpos⟩

theorem used (h : Awaits use depth occurred analysis) (other : Use) :
    Awaits use depth (occurred ∨ use = other) (analysis.use other) := by
  obtain ⟨sight, hsees, hdepth, hunmet, hwaits⟩ := h
  refine ⟨_, hsees.used other, by rw [Sight.depth_wait, hdepth], hunmet.wait _, ?_⟩
  rintro (ho | rfl)
  · exact Sight.waits_wait.2 (.inr (hwaits ho))
  · exact Sight.waits_wait.2 (.inl (decide_eq_true rfl))

theorem bind (h : Awaits use depth occurred analysis) {id : Ident} (hname : id.name ≠ use.id.name)
    (kind : BindingKind) : Awaits use depth occurred (analysis.step (.bind id kind)) := by
  obtain ⟨sight, hsees, hdepth, hunmet, hwaits⟩ := h
  exact ⟨sight, hsees.bind_of_ne hname kind, hdepth, hunmet, hwaits⟩

theorem imp {occurred' : Prop} (h : Awaits use depth occurred analysis) (ho : occurred' → occurred) :
    Awaits use depth occurred' analysis := by
  obtain ⟨sight, hsees, hdepth, hunmet, hwaits⟩ := h
  exact ⟨sight, hsees, hdepth, hunmet, fun h => hwaits (ho h)⟩

/-- A part of a module that does not bind the name lets the use wait. -/
theorem walk {ids : List Ident} {part : List Occurrence} (h : Walk ids part)
    (name : Ident → String) (hunbound : Unbound use.id.name part)
    (ha : Awaits use depth occurred analysis) :
    Awaits use depth (occurred ∨ use ∈ usesIn (part.map (.rename name)))
      ((part.map (.rename name)).foldl Analysis.step analysis) := by
  induction h generalizing depth occurred analysis with
  | skip | unsupported => exact ha.imp (by simp [usesIn, Occurrence.rename, Occurrence.use?])
  | broken => exact ⟨(ha.imp (by simp [usesIn, Occurrence.rename, Occurrence.use?])).sees⟩
  | append _ _ hf hr =>
    obtain ⟨hfirst, hrest⟩ := unbound_append.1 hunbound
    rw [List.map_append, List.foldl_append, usesIn_append]
    refine (hr hrest (hf hfirst ha)).imp ?_
    rw [List.mem_append, or_assoc]
    exact id
  | bind id hkind =>
    exact (ha.bind (hunbound id _ (.head _)) _).imp
      (by simp [usesIn, Occurrence.rename, Occurrence.use?])
  | use id role =>
    exact (ha.used ⟨⟨name id, id.span⟩, role⟩).imp
      (by simp [usesIn, Occurrence.rename, Occurrence.use?])
  | scope kind _ ih =>
    have hinside := (unbound_append.1 (unbound_append.1 hunbound).1).2
    simp only [List.map_append, List.foldl_append, usesIn_append]
    exact (ih hinside (ha.enter kind)).leave.imp
      (by simp [usesIn, Occurrence.rename, Occurrence.use?])
  | function _ _ hp hc =>
    have hbody := (unbound_append.1 (unbound_append.1 hunbound).1).2
    have hparams := (unbound_append.1 (unbound_append.1
      (unbound_append.1 (unbound_append.1 hunbound).1).1).1).2
    simp only [List.map_append, List.foldl_append, usesIn_append]
    exact (hc hbody (hp hparams (ha.enter .function)).settle).leave.imp
      (by simp [usesIn, Occurrence.rename, Occurrence.use?, or_assoc])

/-- A module that does not bind the name lets the use wait. -/
theorem inside (name : Ident → String) (program : Program) :
    ∀ occurred analysis, Unbound use.id.name program.inside → Awaits use 0 occurred analysis →
      Awaits use 0 (occurred ∨ use ∈ usesIn (program.inside.map (.rename name)))
        ((program.inside.map (.rename name)).foldl Analysis.step analysis) := by
  refine Program.inside_induction ?_ ?_ ?_ program
  · intro ids part h occurred analysis hunbound ha
    exact ha.walk h name hunbound
  · intro id occurred analysis hunbound ha
    exact (ha.bind (hunbound id _ (.head _)) .imported).imp
      (by simp [usesIn, Occurrence.rename, Occurrence.use?])
  · intro first rest hf hr occurred analysis hunbound ha
    obtain ⟨hfirst, hrest⟩ := unbound_append.1 hunbound
    rw [List.map_append, List.foldl_append, usesIn_append]
    refine (hr _ _ hrest (hf _ _ hfirst ha)).imp ?_
    rw [List.mem_append, or_assoc]
    exact id

end Awaits

/-! ### The whole -/

section

variable {plan : Plan} {program : Program} {name : Ident → String} {use : Use} {given : Binding}

/-- A module and the lowered module start abreast. -/
theorem Abreast.start (hloader : use.id.name ∉ loaderNames)
    (hgiven : boundBy use.id.name plan.binds = some given) :
    Abreast use [] given 0 (Analysis.start.step (.enter (.top .module)))
      (plan.prelude.foldl Analysis.step (Analysis.start.step (.enter .function))) := by
  have hstart : Sees use none ⟨[], false⟩ (Analysis.start.step (.enter .function)).scopes :=
    .start use rfl
  have hsees := hstart.binds rfl loaderBinds
  rw [boundBy_loaderBinds_of_notMem hloader] at hsees
  have hgave := hsees.settle_bottom.binds rfl plan.binds
  rw [hgiven] at hgave
  refine ⟨⟨[], false⟩, none, some given, .start use rfl, ?_, rfl, .before rfl⟩
  rw [Plan.prelude, List.foldl_append, List.foldl_append]
  exact hgave

/-- A module that breaks no rules about names and the lowered module end abreast. -/
theorem Abreast.finish (hloader : use.id.name ∉ loaderNames)
    (hissues : (Analysis.ofOccurrences (program.occurrences .module)).issues = [])
    (hgiven : boundBy use.id.name plan.binds = some given) (hkinds : given.kinds ≠ []) :
    Abreast use (importsIn use.id.name program.inside) given 0
      (Analysis.ofOccurrences (.enter (.top .module) :: program.inside.map (.rename name)))
      (Analysis.ofOccurrences (.enter .function :: plan.inside program name)) := by
  -- The names of uses do not matter to the rules about bindings.
  have hbare := Analysis.bare_foldl name program.inside
    (rfl : (Analysis.start.step (.enter (.top .module))).bare = _)
  have hrenamed : ((program.inside.map (.rename name)).foldl Analysis.step
      (Analysis.start.step (.enter (.top .module)))).issues = [] := by
    rw [Program.occurrences_module, Analysis.ofOccurrences, List.foldl_append] at hissues
    have hplain := Analysis.issues_of_foldl hissues
    exact (congrArg Analysis.issues hbare).trans hplain
  have h := LeavesAbreast.inside hkinds program (Abreast.start hloader hgiven) hrenamed
  rw [← List.foldl_append] at h
  exact h

/-- The name of the whole of a module takes the place of a name that is imported from it just
    where it means that import, and the module binds it in no other way. -/
theorem Plan.means_iff (plan : Plan) (name : Ident → String)
    (hissues : (Analysis.ofOccurrences (program.occurrences .module)).issues = [])
    (hloader : use.id.name ∉ loaderNames) {holder id : Ident}
    (hmem : (holder, .var) ∈ plan.binds) (hholder : holder.name = use.id.name)
    (himport : id ∈ importsIn use.id.name program.inside)
    (honce : importsIn use.id.name program.inside = [id] →
      (plan.binds.filter fun bind => bind.1.name == use.id.name) = [(holder, .var)]) :
    MeansOutermost .function (plan.inside program name) use ⟨holder, [.var], false⟩ ↔
      MeansOutermost (.top .module) (program.inside.map (.rename name)) use
        ⟨id, [.imported], false⟩ := by
  obtain ⟨given, hgiven, hkinds⟩ := boundBy_of_mem hmem hholder
  obtain ⟨sight, bound, bound', hone, hother, hdepth, hstanding⟩ :=
    @Abreast.finish plan program name use _ hloader hissues hgiven hkinds
  rw [hone.meansOutermost_iff hdepth, hother.meansOutermost_iff hdepth]
  refine and_congr_right fun _ => ?_
  -- At the end the name is imported and nothing else, or it is bound in other ways as well, and
  -- then the use means neither.
  cases hstanding with
  | before h =>
    rw [h] at himport
    cases himport
  | imported first h =>
    rw [h] at himport
    cases List.mem_singleton.1 himport
    rw [boundBy_of_filter (honce h)] at hgiven
    simp [hgiven]
  | mixed hmixed hlength =>
    constructor
    · rintro ⟨⟩
      exact absurd hlength (by simp)
    · rintro ⟨⟩
      obtain ⟨kind, hmem, hkind⟩ := hmixed
      exact absurd (List.mem_singleton.1 hmem) hkind

/-- A name that occurs nowhere in a module, and is bound once by a plan, means what the plan
    binds wherever it is used. -/
theorem Plan.means_fresh (plan : Plan) (name : Ident → String)
    (hissues : (Analysis.ofOccurrences (program.occurrences .module)).issues = [])
    (hloader : use.id.name ∉ loaderNames) {holder : Ident}
    (honce : (plan.binds.filter fun bind => bind.1.name == use.id.name) = [(holder, .var)])
    (hunbound : Unbound use.id.name program.inside)
    (huse : use ∈ usesIn (program.inside.map (.rename name))) :
    MeansOutermost .function (plan.inside program name) use ⟨holder, [.var], false⟩ := by
  have hgiven := boundBy_of_filter honce
  obtain ⟨sight, bound, bound', hone, hother, hdepth, hstanding⟩ :=
    @Abreast.finish plan program name use _ hloader hissues hgiven (List.cons_ne_nil _ _)
  have hstart : Awaits use 0 False (Analysis.start.step (.enter (.top .module))) :=
    ⟨⟨[], false⟩, .start use rfl, rfl, nofun, nofun⟩
  obtain ⟨sight', hsees, -, -, hwaits⟩ := Awaits.inside name program _ _ hunbound hstart
  -- Both views are of the same scopes: one knows that the name is not bound, the other one how
  -- the lowered module binds it.
  obtain ⟨hsight, rfl⟩ := hsees.unique hone hdepth
  rw [hother.meansOutermost_iff hdepth]
  have hwaits : sight.waits = true := by
    obtain ⟨inner, waits⟩ := sight
    obtain rfl := List.length_eq_zero_iff.1 hdepth
    simpa [hsight, Sight.Waits] using hwaits (.inr huse)
  cases hstanding with
  | before => exact ⟨hwaits, rfl⟩

end

end Bundler.Lowering

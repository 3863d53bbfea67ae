import Bundler.Proofs.Lowering.Accepted
import Bundler.Proofs.Lowering.Added
import Bundler.Proofs.Script.Top

/-!
# The names in what is added to a module

What is added to a module asks for other modules by `require`, gives exports to `exports`, and calls
functions of `Object`. It stands at the top of the lowered module, so these names mean there what
they should if the lowered module binds none of them at its top. A module that binds a name of the
loader there is not accepted, and the names that are added are others. But a module may bind
`Object`.

* `Uncaptured`: a name that a module does not bind at its top, in the module and the lowered one;
* `Plan.mentions`: the names of the loader and of globals in it;
* `mentions_of_examine`: what the names mean in what is added.
-/

namespace Bundler.Lowering

open Script

/-! ### Names that are not bound at the top -/

/-- A module and the lowered module, as far as a use is concerned, after some imports of its name:
    if the outermost scope of the module does not bind the name, it was not imported, and the use has
    the same sight in both, from so deep within the outermost scope. -/
structure Uncaptured (use : Use) (imports : List Ident) (given : Option Binding) (depth : Nat)
    (one other : Analysis) : Prop where
  /-- What the use sees. -/
  sees : ∃ sight bound, Sees use bound sight one.scopes ∧ sight.depth = depth ∧
    (bound = none → imports = [] ∧ Sees use given sight other.scopes)
  /-- The outermost scope of the module is that of the top. -/
  kinds : ∃ inner, one.kinds = inner ++ [.top .module] ∧ inner.length = depth
  /-- The names at the top are noted. -/
  noted : one.Noted

namespace Uncaptured

variable {use : Use} {imports : List Ident} {given : Option Binding} {depth : Nat}
  {one other : Analysis}

theorem enter (h : Uncaptured use imports given depth one other) (kind : ScopeKind) :
    Uncaptured use imports given (depth + 1) (one.step (.enter kind))
      (other.step (.enter kind)) where
  sees := by
    obtain ⟨sight, bound, hone, rfl, hother⟩ := h.sees
    exact ⟨sight.enter kind, bound, hone.enter kind, rfl,
      fun hbound => (hother hbound).imp_right fun hother => hother.enter kind⟩
  kinds := by
    obtain ⟨inner, hkinds, rfl⟩ := h.kinds
    exact ⟨kind :: inner, congrArg (kind :: ·) hkinds, rfl⟩
  noted := h.noted.step _

theorem leave (h : Uncaptured use imports given (depth + 1) one other) :
    Uncaptured use imports given depth (one.step .leave) (other.step .leave) where
  sees := by
    obtain ⟨sight, bound, hone, hdepth, hother⟩ := h.sees
    have hpos : 0 < sight.depth := by omega
    exact ⟨sight.leave, bound, hone.leave hpos, by rw [Sight.depth_leave, hdepth]; rfl,
      fun hbound => (hother hbound).imp_right fun hother => hother.leave hpos⟩
  kinds := by
    obtain ⟨inner, hkinds, hlength⟩ := h.kinds
    obtain ⟨kind, inner, rfl⟩ := List.exists_cons_of_length_eq_add_one hlength
    exact ⟨inner, by rw [one.kinds_leave, hkinds]; rfl, Nat.succ.inj hlength⟩
  noted := h.noted.step _

theorem settle (h : Uncaptured use imports given (depth + 1) one other) :
    Uncaptured use imports given (depth + 1) (one.step .settle) (other.step .settle) where
  sees := by
    obtain ⟨sight, bound, hone, hdepth, hother⟩ := h.sees
    have hpos : 0 < sight.depth := by omega
    exact ⟨sight.settle, bound, hone.settle hpos, by rw [Sight.depth_settle, hdepth],
      fun hbound => (hother hbound).imp_right fun hother => hother.settle hpos⟩
  kinds := one.kinds_lookUp ▸ h.kinds
  noted := h.noted.step _

/-- A name is bound in both, and not by an import. -/
theorem bind (h : Uncaptured use imports given depth one other) (id : Ident) (kind : BindingKind) :
    Uncaptured use imports given depth (one.step (.bind id kind)) (other.step (.bind id kind)) where
  sees := by
    obtain ⟨sight, bound, hone, hdepth, hother⟩ := h.sees
    by_cases hname : id.name = use.id.name
    · by_cases hvar : kind = .var
      · -- Only a variable can be bound in the outermost scope from within another one.
        subst hvar
        cases hreaches : sight.reaches with
        | false =>
          exact ⟨_, bound, hone.bindVar_inside hname hreaches,
            by rw [Sight.depth_bindVar, hdepth], fun hbound => (hother hbound).imp_right
              fun hother => hother.bindVar_inside hname hreaches⟩
        | true =>
          obtain ⟨_, -, hone⟩ := hone.bindVar_bottom hname hreaches
          exact ⟨_, _, hone, by rw [Sight.depth_bindVar, hdepth], nofun⟩
      · rw [Analysis.step_bind_of_ne hvar, Analysis.step_bind_of_ne hvar]
        rcases Nat.eq_zero_or_pos sight.depth with hzero | hpos
        · exact ⟨sight, _, hone.bindHere_bottom hzero hname kind, hdepth, nofun⟩
        · exact ⟨_, bound, hone.bindHere_inside hpos hname kind,
            by rw [Sight.depth_bindHere, hdepth], fun hbound => (hother hbound).imp_right
              fun hother => hother.bindHere_inside hpos hname kind⟩
    · exact ⟨sight, bound, hone.bind_of_ne hname kind, hdepth,
        fun hbound => (hother hbound).imp_right fun hother => hother.bind_of_ne hname kind⟩
  kinds := one.kinds_bind id kind ▸ h.kinds
  noted := h.noted.step _

theorem used (h : Uncaptured use imports given depth one other) (another : Use) :
    Uncaptured use imports given depth (one.use another) (other.use another) where
  sees := by
    obtain ⟨sight, bound, hone, hdepth, hother⟩ := h.sees
    exact ⟨_, bound, hone.used another, by rw [Sight.depth_wait, hdepth],
      fun hbound => (hother hbound).imp_right fun hother => hother.used another⟩
  kinds := one.kinds_use another ▸ h.kinds
  noted := h.noted.step (.use another.id another.role)

theorem lowered_use (h : Uncaptured use imports given depth one other) (name : Ident → String)
    (id : Ident) (role : Role) :
    Uncaptured use imports given depth (one.step (Occurrence.rename name (.use id role)))
      ((lowered name (.use id role)).foldl Analysis.step other) := by
  have hused := h.used ⟨⟨name id, id.span⟩, role⟩
  cases role with
  | exported =>
    refine ⟨?_, hused.kinds, hused.noted⟩
    obtain ⟨sight, bound, hone, hdepth, hother⟩ := h.sees
    refine ⟨_, bound, hone.used _, by rw [Sight.depth_wait, hdepth], fun hbound => ?_⟩
    obtain ⟨himports, hother⟩ := hother hbound
    rw [lowered, foldl_getter hother.ne_nil]
    exact ⟨himports, hother.used _⟩
  | _ => exact hused

/-- A part of a module without imports. -/
theorem lockstep (name : Ident → String) : Lockstep name (Uncaptured use imports given) where
  enter _ _ _ kind h := h.enter kind
  leave _ _ _ h := h.leave
  settle _ _ _ h := h.settle
  bind _ _ _ id kind _ h := h.bind id kind
  use _ _ _ id role h := h.lowered_use name id role
  broken _ _ _ _ h := ⟨h.sees, h.kinds, h.noted⟩

/-- A name is imported in the module, and not in the lowered module. -/
theorem imported (h : Uncaptured use imports given 0 one other) (id : Ident) :
    Uncaptured use (imports ++ importsIn use.id.name [.bind id .imported]) given 0
      (one.step (.bind id .imported)) other where
  sees := by
    obtain ⟨sight, bound, hone, hdepth, hother⟩ := h.sees
    by_cases hname : id.name = use.id.name
    · exact ⟨sight, _, hone.bindHere_bottom hdepth hname .imported, hdepth, nofun⟩
    · have hnone : importsIn use.id.name [.bind id .imported] = [] := by simp [importsIn, hname]
      rw [hnone, List.append_nil]
      exact ⟨sight, bound, hone.bindHere_of_ne hname .imported, hdepth, hother⟩
  kinds := one.kinds_bind id .imported ▸ h.kinds
  noted := h.noted.step _

/-- A whole module. -/
theorem inside (use : Use) (given : Option Binding) (name : Ident → String) (program : Program) :
    ∀ imports one other, Uncaptured use imports given 0 one other →
      Uncaptured use (imports ++ importsIn use.id.name program.inside) given 0
        ((program.inside.map (.rename name)).foldl Analysis.step one)
        ((program.inside.flatMap (lowered name)).foldl Analysis.step other) := by
  refine Program.inside_induction ?_ ?_ ?_ program
  · intro ids part h imports one other hun
    rw [importsIn_walk h, List.append_nil]
    exact (lockstep name).walk h hun
  · intro id imports one other hun
    exact hun.imported id
  · intro first rest hf hr imports one other hun
    rw [List.map_append, List.flatMap_append, List.foldl_append, List.foldl_append,
      importsIn_append, ← List.append_assoc]
    exact hr _ _ _ (hf _ _ _ hun)

/-- The module and the lowered module start so, whatever the loader binds by the name, if what is
    added to the module does not bind it. -/
theorem start {plan : Plan} (hbinds : ∀ bind ∈ plan.binds, bind.1.name ≠ use.id.name) :
    Uncaptured use [] (boundBy use.id.name loaderBinds) 0
      (Analysis.start.step (.enter (.top .module)))
      (plan.prelude.foldl Analysis.step (Analysis.start.step (.enter .function))) where
  sees := by
    have hstart : Sees use none ⟨[], false⟩ (Analysis.start.step (.enter .function)).scopes :=
      .start use rfl
    refine ⟨⟨[], false⟩, none, .start use rfl, rfl, fun _ => ⟨rfl, ?_⟩⟩
    rw [Plan.prelude, List.foldl_append, List.foldl_append]
    exact (hstart.binds rfl loaderBinds).settle_bottom.binds_of_ne hbinds
  kinds := ⟨[], rfl, rfl⟩
  noted := by
    intro scope hscope goal hkind binding hbinding
    obtain rfl := List.mem_singleton.1 hscope
    cases hbinding

end Uncaptured

/-- A name that a module does not bind at its top is bound in the outermost scope of the lowered
    module as the loader binds it, if what is added does not bind it. It is not imported, either. -/
theorem Uncaptured.finish {program : Program} {use : Use} {plan : Plan} (name : Ident → String)
    (hbinds : ∀ bind ∈ plan.binds, bind.1.name ≠ use.id.name)
    (htop : ∀ bound ∈ (Analysis.ofOccurrences (program.occurrences .module)).top,
      bound.name ≠ use.id.name) :
    importsIn use.id.name program.inside = [] ∧
      ∃ sight, sight.depth = 0 ∧ Sees use (boundBy use.id.name loaderBinds) sight
        (Analysis.ofOccurrences (.enter .function :: plan.inside program name)).scopes := by
  have h := Uncaptured.inside use _ name program _ _ _ (Uncaptured.start hbinds)
  rw [← List.foldl_append, List.nil_append] at h
  obtain ⟨sight, bound, hone, hdepth, hother⟩ := h.sees
  suffices hbound : bound = none by
    obtain ⟨himports, hother⟩ := hother hbound
    exact ⟨himports, sight, hdepth, hother⟩
  -- What the outermost scope binds is noted, and the name is not among what is.
  cases bound with
  | none => rfl
  | some binding =>
    obtain ⟨scope, hscopes, -, hfind⟩ := hone.eq_bottom hdepth
    obtain ⟨inner, hkinds, hlength⟩ := h.kinds
    obtain rfl := List.length_eq_zero_iff.1 hlength
    rw [Analysis.kinds, hscopes] at hkinds
    obtain ⟨bound, hbound, hname⟩ := h.noted.mem_top hscopes (List.cons.inj hkinds).1 hfind
    rw [Analysis.top_renamed] at hbound
    exact absurd hname (htop bound hbound)

/-! ### What is mentioned -/

/-- A name of the loader, or of a global, in what is added to a module. -/
def mention (name : String) : Occurrence :=
  .use ⟨name, ⟨0, 0⟩⟩ .plain

/-- The names of the loader and of globals in a statement that is written into a module, with the
    scopes in which they stand. Export by export is copied by a function of one parameter. -/
def Statement.mentions : Statement → List Occurrence
  | .require _ | .bindRequire _ _ => [mention "require"]
  | .mark | .getter _ _ => [mention "Object", mention "exports"]
  | .all _ _ =>
    [mention "Object", .enter .function, .bind ⟨"key", ⟨0, 0⟩⟩ (.param false), .settle,
      mention "Object", mention "exports", mention "Object", mention "exports", .leave]

/-- They are the names that the text of a statement uses, apart from those it is given and from the
    parameter. -/
example : ∀ statement ∈ [.require "./a.js", .bindRequire "_a" "./a.js", .mark, .getter "x" "_a.x",
      .all "_a" []],
    (Program.read .script (Statement.text statement)).toOption.map (fun program =>
      ((usesIn program.inside).map (·.id.name)).filter (· ∉ ["_a", "key"])) =
      some ((usesIn statement.mentions).map (·.id.name)) := by
  decide +kernel

/-- The names of the loader and of globals in a change, with the scopes in which they stand. -/
def Change.mentions : Change → List Occurrence
  | .statements written => written.flatMap Statement.mentions
  | .prologue exports =>
    (.mark :: exports.map fun one => Statement.getter one.1 one.2).flatMap Statement.mentions
  | .assignDefault => [mention "exports"]
  | _ => []

/-- The names of the loader and of globals in what is added to a module. It stands outside of all
    inner scopes of the module, so it does not matter where. -/
def Plan.mentions (plan : Plan) : List Occurrence :=
  plan.changes.flatMap fun one => one.2.mentions

/-- What is told mentions names as if all of them stood outside of inner scopes. -/
def IsFlat (tell : List Occurrence) : Prop :=
  ∀ ⦃analysis : Analysis⦄, analysis.scopes ≠ [] →
    tell.foldl Analysis.step analysis = (usesIn tell).foldl Analysis.use analysis

theorem foldl_use_ne_nil (uses : List Use) {analysis : Analysis} (h : analysis.scopes ≠ []) :
    (uses.foldl Analysis.use analysis).scopes ≠ [] := by
  induction uses generalizing analysis with
  | nil => exact h
  | cons use more ih =>
    refine ih ?_
    unfold Analysis.use
    split
    · exact h
    · exact List.cons_ne_nil _ _

theorem IsFlat.flatMap {α : Type} {tell : α → List Occurrence} {parts : List α}
    (h : ∀ part ∈ parts, IsFlat (tell part)) : IsFlat (parts.flatMap tell) := by
  intro analysis hscopes
  induction parts generalizing analysis with
  | nil => rfl
  | cons part more ih =>
    obtain ⟨hfirst, hmore⟩ := List.forall_mem_cons.1 h
    rw [List.flatMap_cons, List.foldl_append, hfirst hscopes, usesIn_append, List.foldl_append]
    exact ih hmore (foldl_use_ne_nil _ hscopes)

/-- A name that a function mentions waits as if it were mentioned around it, if it is not that of a
    parameter. -/
theorem Statement.isFlat_mentions (statement : Statement) : IsFlat statement.mentions := by
  rintro ⟨scopes, top, found, issues⟩ hscopes
  cases scopes with
  | nil => exact absurd rfl hscopes
  | cons scope outer => cases statement <;> rfl

theorem Change.isFlat_mentions (change : Change) : IsFlat change.mentions := by
  cases change with
  | statements | prologue => exact .flatMap fun statement _ => statement.isFlat_mentions
  | _ => exact fun _ _ => rfl

theorem Plan.isFlat_mentions (plan : Plan) : IsFlat plan.mentions :=
  .flatMap fun one _ => one.2.isFlat_mentions

/-! ### What the names mean -/

theorem Statement.name_of_mention (statement : Statement) :
    ∀ use ∈ usesIn statement.mentions, use.id.name ∈ "Object" :: loaderNames := by
  cases statement <;> dsimp only [mentions] <;> decide

theorem Change.name_of_mention (change : Change) :
    ∀ use ∈ usesIn change.mentions, use.id.name ∈ "Object" :: loaderNames := by
  cases change with
  | statements | prologue =>
    intro use huse
    rw [mentions, usesIn, List.filterMap_flatMap] at huse
    obtain ⟨statement, -, huse⟩ := List.mem_flatMap.1 huse
    exact statement.name_of_mention use huse
  | assignDefault => decide
  | _ => exact List.forall_mem_nil _

/-- Only names of the loader and `Object` are mentioned. -/
theorem Plan.name_of_mention (plan : Plan) :
    ∀ use ∈ usesIn plan.mentions, use.id.name ∈ "Object" :: loaderNames := by
  intro use huse
  rw [mentions, usesIn, List.filterMap_flatMap] at huse
  obtain ⟨one, -, huse⟩ := List.mem_flatMap.1 huse
  exact one.2.name_of_mention use huse

/-- What is added to a module binds no name that is mentioned in it, if the module does not import
    it. -/
theorem binds_of_mention {subject : Subject}
    (hoccurrences : subject.occurrences = subject.program.occurrences .module) {use : Use}
    (huse : use ∈ usesIn (Plan.make subject).mentions)
    (hnone : importsIn use.id.name subject.program.inside = []) :
    ∀ bind ∈ (Plan.make subject).binds, bind.1.name ≠ use.id.name := by
  have hbinds := Plan.binds_make hoccurrences
  rintro bind hbind hname
  by_cases hown : bind.1.name ∈ Plan.namesIn subject.occurrences
  · -- A name of the module is only bound where the module imports another one by it.
    have hwhole : bind ∈ subject.program.body.filterMap TopLevel.whole? :=
      hbinds.own ▸ List.mem_filter.2 ⟨hbind, decide_eq_true hown⟩
    have hlength := subject.program.length_wholes_le use.id.name
    have hmem : bind ∈ (subject.program.body.filterMap TopLevel.whole?).filter
        fun bind => bind.1.name == use.id.name := List.mem_filter.2 ⟨hwhole, beq_iff_eq.2 hname⟩
    rw [hnone, List.length_nil, Nat.le_zero, List.length_eq_zero_iff] at hlength
    rw [hlength] at hmem
    cases hmem
  · -- Any other name starts with `_`, and no name that is mentioned does.
    have hfresh := hbinds.head? bind hbind hown
    rw [hname] at hfresh
    have hplain : ∀ name ∈ "Object" :: loaderNames, name.toList.head? ≠ some '_' := by decide
    exact hplain _ (Plan.name_of_mention _ use huse) hfresh

/-- A name that is mentioned in what is added to a module, and that the module does not bind at its
    top, means what the loader binds by it, or a global. -/
theorem sees_mention {subject : Subject}
    (hoccurrences : subject.occurrences = subject.program.occurrences .module) {use : Use}
    (name : Ident → String)
    (htop : ∀ bound ∈ (Analysis.ofOccurrences (subject.program.occurrences .module)).top,
      bound.name ≠ use.id.name)
    (huse : use ∈ usesIn (Plan.make subject).mentions) :
    ∃ sight, sight.depth = 0 ∧ sight.waits = true ∧
      Sees use (boundBy use.id.name loaderBinds) sight
        (Analysis.ofOccurrences (.enter .function ::
          ((Plan.make subject).inside subject.program name ++
            (Plan.make subject).mentions))).scopes := by
  -- Whether the name is imported is told by the module alone, without what is added to it.
  have hnone := (@Uncaptured.finish subject.program use (Plan.start []) name nofun htop).1
  obtain ⟨-, sight, hdepth, hsees⟩ :=
    Uncaptured.finish name (binds_of_mention hoccurrences huse hnone) htop
  obtain ⟨later, hlater, hsees', hwaits⟩ :=
    hsees.foldl_use hdepth (usesIn (Plan.make subject).mentions)
  refine ⟨later, hlater, hwaits (.inr huse), ?_⟩
  have := Plan.isFlat_mentions (Plan.make subject) hsees.ne_nil
  unfold Analysis.ofOccurrences at this ⊢
  rw [← List.cons_append, List.foldl_append, this]
  exact hsees'

end Bundler.Lowering

namespace Bundler

open Script Lowering

/-- What the names in what is added to a module mean in the lowered module, whatever its uses are
    renamed to: those of the loader its parameters, and `Object` the global if the module does not
    bind it at its top. There are no others. -/
theorem mentions_of_examine {id source : String} {subject : Subject}
    (h : examine id source = .ok subject) (name : Ident → String) :
    let plan := Plan.make subject
    let inside := plan.inside subject.program name ++ plan.mentions
    ∀ use ∈ usesIn plan.mentions,
      (use.id.name ∈ loaderNames ∧ MeansOutermost .function inside use
        ⟨⟨use.id.name, ⟨0, 0⟩⟩, [.param false], false⟩) ∨
      (use.id.name = "Object" ∧
        ((∀ bound ∈ subject.analysis.top, bound.name ≠ "Object") →
          MeansGlobal .function inside use)) := by
  intro plan inside use huse
  obtain ⟨program, -, -, hclash, -, rfl⟩ := examine_eq_ok_iff.1 h
  have hloader := loaderClash?_eq_none_iff.1 hclash
  rcases List.mem_cons.1 (plan.name_of_mention use huse) with hobject | hname
  · refine .inr ⟨hobject, fun htop => ?_⟩
    rw [← hobject] at htop
    obtain ⟨sight, hdepth, hwaits, hsees⟩ := sees_mention rfl name htop huse
    have hname : use.id.name ∉ loaderNames := hobject ▸ by decide
    exact (hsees.meansGlobal_iff hdepth).2 ⟨hwaits, boundBy_loaderBinds_of_notMem hname⟩
  · refine .inl ⟨hname, ?_⟩
    obtain ⟨sight, hdepth, hwaits, hsees⟩ := sees_mention rfl name
      (fun bound hbound heq => hloader bound hbound (heq ▸ hname)) huse
    exact (hsees.meansOutermost_iff hdepth).2 ⟨hwaits, boundBy_loaderBinds hname⟩

/-- A module may bind `Object` at its top: it is accepted, and what is added to it to export `x` then
    calls its own. -/
theorem mentions_of_examine_object :
    ∃ subject, examine "a.js" "const Object = 1;\nexport const x = 2;\n" = .ok subject ∧
      subject.analysis.top.map (·.name) = ["x", "Object"] ∧
      (usesIn (Plan.make subject).mentions).map (·.id.name) =
        ["Object", "exports", "Object", "exports"] ∧
      let plan := Plan.make subject
      let inside := plan.inside subject.program Ident.name ++ plan.mentions
      ∀ use ∈ usesIn plan.mentions,
        (use.id.name ∈ loaderNames ∧ MeansOutermost .function inside use
          ⟨⟨use.id.name, ⟨0, 0⟩⟩, [.param false], false⟩) ∨
        (use.id.name = "Object" ∧
          ((∀ bound ∈ subject.analysis.top, bound.name ≠ "Object") →
            MeansGlobal .function inside use)) := by
  have hnames : (examine "a.js" "const Object = 1;\nexport const x = 2;\n").toOption.map
      (fun subject => (subject.analysis.top.map (·.name),
        (usesIn (Plan.make subject).mentions).map (·.id.name))) =
      some (["x", "Object"], ["Object", "exports", "Object", "exports"]) := by
    decide +kernel
  cases hsubject : examine "a.js" "const Object = 1;\nexport const x = 2;\n" with
  | error error =>
    rw [hsubject] at hnames
    cases hnames
  | ok subject =>
    rw [hsubject] at hnames
    obtain ⟨htop, hmentions⟩ := Prod.mk.inj (Option.some.inj hnames)
    exact ⟨subject, rfl, htop, hmentions, mentions_of_examine hsubject Ident.name⟩

end Bundler

import Bundler.Proofs.Lowering.Called
import Bundler.Proofs.Lowering.Loader

/-!
# What stands for an imported name

Where a module uses a name that it imports from another one, the lowered module has a property of the
variable that is bound to that module. If the variable is a fresh one it is found there, wherever the
name was used. But a module may import another one as a whole by the same statement, and then the
variable has the name that the module gave it: a parameter of this name takes it away from the uses
within its function.

* `Plan.Binds.filter_fresh`, `Plan.Binds.filter_whole`: a variable for another module is bound once;
* `Plan.Finds`: what the variable for a module means in the lowered module;
* `holding_of_lower`: what stands for imported names in a lowered module.
-/

namespace Bundler

open Script Lowering

namespace Script

theorem Analysis.issues_of_issue? {analysis : Analysis} (h : analysis.issue? = none) :
    analysis.issues = [] := by
  rw [issue?, List.head?_eq_none_iff] at h
  exact List.reverse_eq_nil_iff.1 (List.append_eq_nil_iff.1 h).1

/-- An imported name is bound at the top, so it is none of the loader's if those are not. -/
theorem Program.notMem_loaderNames {program : Program} {id : Ident} {name : String}
    (htop : ∀ bound ∈ (Analysis.ofOccurrences (program.occurrences .module)).top,
      bound.name ∉ loaderNames)
    (himport : id ∈ importsIn name program.inside) : name ∉ loaderNames := by
  intro hname
  have hnone := (@Uncaptured.finish program ⟨⟨name, ⟨0, 0⟩⟩, .plain⟩ (Plan.start []) Ident.name nofun
    fun bound hbound heq => htop bound hbound (heq ▸ hname)).1
  exact List.ne_nil_of_mem himport hnone

end Script

namespace Lowering

namespace Plan

theorem eq_singleton_of_length_le {α : Type} {list : List α} {one : α} (hmem : one ∈ list)
    (hlength : list.length ≤ 1) : list = [one] := by
  obtain ⟨other, rfl⟩ :=
    List.length_eq_one_iff.1 (Nat.le_antisymm hlength (List.length_pos_of_mem hmem))
  rw [List.mem_singleton.1 hmem]

/-! ### Variables that are bound once -/

namespace Binds

variable {analysis : Analysis} {names : List String} {statements : List TopLevel} {plan : Plan}
  {bind : Ident × BindingKind}

/-- A fresh name is bound once. -/
theorem filter_fresh (h : Binds analysis names statements plan) (hmem : bind ∈ plan.binds)
    (hforeign : bind.1.name ∉ names) :
    (plan.binds.filter fun other => other.1.name == bind.1.name) = [bind] := by
  refine eq_singleton_of_length_le (List.mem_filter.2 ⟨hmem, beq_self_eq_true _⟩) ?_
  have hcount := List.nodup_iff_count_le_one.1 h.once bind.1.name
  rw [List.count, List.countP_map, List.countP_eq_length_filter, List.filter_filter] at hcount
  refine Nat.le_trans (Nat.le_of_eq (congrArg List.length (List.filter_congr ?_))) hcount
  intro other _
  -- Whatever has the name is fresh, too.
  by_cases hname : other.1.name = bind.1.name
  · simp [hname, hforeign]
  · simp [hname]

/-- The name by which a module imports another one as a whole is bound once, if it is imported
    once. -/
theorem filter_whole {program : Program} (h : Binds analysis names program.body plan)
    (hmem : bind ∈ plan.binds) (hown : bind.1.name ∈ names)
    (honce : (importsIn bind.1.name program.inside).length ≤ 1) :
    (plan.binds.filter fun other => other.1.name == bind.1.name) = [bind] := by
  refine eq_singleton_of_length_le (List.mem_filter.2 ⟨hmem, beq_self_eq_true _⟩) ?_
  have hsame : (plan.binds.filter fun other => other.1.name == bind.1.name) =
      (program.body.filterMap TopLevel.whole?).filter fun other => other.1.name == bind.1.name := by
    rw [← h.own, List.filter_filter]
    refine List.filter_congr fun other _ => ?_
    by_cases hname : other.1.name = bind.1.name
    · simp [hname, hown]
    · simp [hname]
  rw [hsame]
  exact Nat.le_trans (program.length_wholes_le _) honce

end Binds

/-! ### What the variables mean -/

/-- The variable that an import binds is found in the lowered module where a name was used, whatever
    the other uses are renamed to. -/
inductive Finds (subject : Subject) (span : Span) (specifiers : List ImportSpecifier) (renamed : Use)
    (name : Ident → String) : Prop where
  /-- It is a fresh one, and the use means it. -/
  | fresh (hnone : wholeName? specifiers = none)
    (hmeans : MeansOutermost .function ((make subject).inside subject.program name) renamed
      ⟨⟨renamed.id.name, span⟩, [.var], false⟩)
  /-- It is the module's own name for the whole module, and the use means it if this name would have
      meant the whole module there. -/
  | whole {id : Ident} (hmem : .wholeModule id ∈ specifiers) (hname : id.name = renamed.id.name)
    (hmeans : MeansOutermost .function ((make subject).inside subject.program name) renamed
        ⟨⟨renamed.id.name, span⟩, [.var], false⟩ ↔
      MeansOutermost (.top .module) (subject.program.inside.map (.rename name)) renamed
        ⟨id, [.imported], false⟩)

/-- A use after other names are given to the uses. -/
theorem renamed_mem {program : Program} {use : Use} (h : use ∈ usesIn program.inside)
    (name : Ident → String) :
    ⟨⟨name use.id, use.id.span⟩, use.role⟩ ∈ usesIn (program.inside.map (.rename name)) := by
  obtain ⟨occurrence, hoccurrence, huse⟩ := List.mem_filterMap.1 h
  refine List.mem_filterMap.2 ⟨_, List.mem_map_of_mem hoccurrence, ?_⟩
  cases occurrence <;> cases huse
  rfl

/-- A name that is not in a module is bound nowhere in it. -/
theorem unbound_of_notMem {program : Program} {name : String}
    (h : name ∉ namesIn (program.occurrences .module)) : Unbound name program.inside := by
  rintro id kind hbind rfl
  have hmem : .bind id kind ∈ program.occurrences .module := by
    rw [Program.occurrences_module]
    exact List.mem_append_left _ (List.mem_append_right _ hbind)
  exact h (List.mem_filterMap.2 ⟨_, hmem, rfl⟩)

/-- The variable that an import binds is found where the names that it imports were used. -/
theorem finds_of_bound {id source : String} {subject : Subject}
    (hsubject : examine id source = .ok subject) {use : Use}
    (huse : use ∈ usesIn subject.program.inside) {span : Span}
    {specifiers : List ImportSpecifier} {source' : Source} {holder : String}
    (hstatement : .importFrom span (some specifiers) source' ∈ subject.program.body)
    (hbound : (span, .statements [.bindRequire holder source'.value.toText]) ∈
      (make subject).changes)
    (hholder : (wholeName? specifiers).elim (holder ∉ namesIn subject.occurrences) (holder = ·))
    (name : Ident → String) (hname : name use.id = holder) :
    Finds subject span specifiers ⟨⟨holder, use.id.span⟩, use.role⟩ name := by
  have hbinds := binds_make (occurrences_of_examine hsubject)
  have hbound : (⟨holder, span⟩, .var) ∈ (make subject).binds :=
    List.mem_flatMap.2 ⟨_, hbound, .head _⟩
  obtain ⟨program, -, hissue, hclash, -, rfl⟩ := examine_eq_ok_iff.1 hsubject
  have hissues := Analysis.issues_of_issue? hissue
  have htop := loaderClash?_eq_none_iff.1 hclash
  cases hwhole : wholeName? specifiers with
  | none =>
    rw [hwhole] at hholder
    have hfresh := hbinds.head? _ hbound hholder
    have hplain : ∀ name ∈ loaderNames, name.toList.head? ≠ some '_' := by decide
    exact .fresh hwhole (means_fresh _ name hissues (fun hmem => hplain _ hmem hfresh)
      (hbinds.filter_fresh hbound hholder) (unbound_of_notMem hholder)
      (hname ▸ renamed_mem huse name))
  | some whole =>
    rw [hwhole] at hholder
    obtain rfl : holder = whole := hholder
    obtain ⟨id, hmem, rfl⟩ := exists_of_wholeName? hwhole
    have himport := Program.mem_importsIn hstatement (TopLevel.mem_importsIn hmem span source' _)
    refine .whole hmem rfl (means_iff _ name hissues (Program.notMem_loaderNames htop himport) hbound
      rfl himport fun honce => ?_)
    exact hbinds.filter_whole hbound (mem_namesIn_of_import himport)
      (Nat.le_of_eq (congrArg List.length honce))

/-- A change to a use is one to the use of an imported name. -/
theorem imported_of_isUse {subject : Subject}
    (hoccurrences : subject.occurrences = subject.program.occurrences .module)
    {one : Span × Change} (hone : one ∈ (make subject).changes) (huse : one.2.isUse = true) :
    ∃ use declared, (use, some declared) ∈ subject.analysis.found ∧ one.1 = use.id.span ∧
      declared ∈ subject.program.imported.map fun one => subject.analysis.declarationOf one.1 := by
  obtain ⟨⟨use, meaning⟩, hfound, hone⟩ := List.mem_filterMap.1 (mem_usesOf hone huse)
  obtain ⟨value, hvalue, rfl⟩ := Option.map_eq_some_iff.1 hone
  obtain ⟨declared, rfl, hlookup⟩ := Option.bind_eq_some_iff.1 hvalue
  obtain ⟨imported, himported, _, _, _, _, -, -, hentry, -⟩ := exists_imported hoccurrences hlookup
  exact ⟨use, declared, List.mem_reverse.1 hfound, rfl,
    List.mem_map.2 ⟨imported, himported, (congrArg Prod.fst hentry).symm⟩⟩

end Plan

end Lowering

/-- A module and the lowered module, with what stands for imported names. -/
structure Holding (source code : String) (subject : Subject) (pieces : List Piece) : Prop extends
    Made source code subject.program pieces where
  /-- Where an imported name was used, a property stands of a variable that is bound in the place of
      the import, to the module that the import is from, and the variable is found there. -/
  held : ∀ use declared, (use, some declared) ∈ subject.analysis.found →
    declared ∈ subject.program.imported.map (fun one => subject.analysis.declarationOf one.1) →
    ∃ span specifiers other imported holder,
      .importFrom span (some specifiers) other ∈ subject.program.body ∧
      imported ∈ Plan.importedNames specifiers ∧
      subject.analysis.declarationOf imported.1 = declared ∧
      (∃ old, .changed span old (.statements [.bindRequire holder other.value.toText]) ∈ pieces) ∧
      (Gone pieces use.id.span ∨ ∃ old, .changed use.id.span old
        (Plan.useChange subject.source use (holder ++ memberOf imported.2)) ∈ pieces) ∧
      ∀ name : Ident → String, name use.id = holder →
        Plan.Finds subject span specifiers ⟨⟨holder, use.id.span⟩, use.role⟩ name
  /-- No other uses are changed. -/
  only : ∀ span old change, .changed span old change ∈ pieces → change.isUse = true →
    ∃ use declared, (use, some declared) ∈ subject.analysis.found ∧ span = use.id.span ∧
      declared ∈ subject.program.imported.map fun one => subject.analysis.declarationOf one.1

/-- In a lowered module an export of the imported module stands for an imported name. -/
theorem holding_of_lower {id source : String} {lowered : Lowered}
    (h : lower id source = .ok lowered) :
    ∃ subject, examine id source = .ok subject ∧
      Holding source lowered.code subject ((Plan.make subject).pieces subject.source) := by
  obtain ⟨subject, hsubject, hanalysis, hmade, -⟩ := made_of_lower h
  have hstands := Program.read_stands hmade.read
  have hoccurrences := occurrences_of_examine hsubject
  refine ⟨subject, hsubject, { hmade with held := ?_, only := ?_ }⟩
  · intro use declared hfound hdeclared
    obtain ⟨value, hvalue⟩ := Plan.exists_value hoccurrences hdeclared
    obtain ⟨imported, -, span, specifiers, other, holder, hstatement, himported, hentry, hbound,
      hholder⟩ := Plan.exists_imported hoccurrences hvalue
    obtain ⟨rfl, rfl⟩ := Prod.mk.inj hentry
    have huse : use ∈ usesIn subject.program.inside := by
      rw [hanalysis] at hfound
      exact Analysis.mem_usesIn_of_found hfound
    exact ⟨span, specifiers, other, imported, holder, hstatement, himported, rfl,
      Plan.made_of_mem hstands hanalysis hbound rfl,
      Plan.gone_or_made hstands hanalysis hfound hvalue, fun name hname =>
        Plan.finds_of_bound hsubject huse hstatement hbound hholder name hname⟩
  · intro span old change hpiece huse
    exact Plan.imported_of_isUse hoccurrences (Plan.mem_changes_of_pieces hpiece) huse

/-- A module that imports another one as a whole by the name of a parameter, and an export of it that
    it uses where the parameter is bound. -/
def namesake : String :=
  "import d, * as ns from './f.js';\nexport function g(ns) \x7b return d; \x7d\n"

/-- What stands for the export is a property of the parameter: where it stands the parameter's name
    does not mean the variable for the other module. -/
theorem holding_of_lower_namesake :
    ∃ lowered, lower "a.js" namesake = .ok lowered ∧
      ∃ subject, examine "a.js" namesake = .ok subject ∧
        (Plan.make subject).changes.map (·.2.text) =
          ["var ns = require(\"./f.js\");", "", "ns.default",
            "\n" ++ Statement.text .mark ++ "\n" ++ (Statement.getter "g" "g").text ++ "\n"] ∧
        (∀ use ∈ usesIn subject.program.inside, ∀ binding,
          ¬ MeansOutermost .function ((Plan.make subject).inside subject.program fun _ => "ns")
            ⟨⟨"ns", use.id.span⟩, use.role⟩ binding) ∧
        Holding namesake lowered.code subject ((Plan.make subject).pieces subject.source) := by
  obtain ⟨lowered, hlower⟩ :=
    exists_lower_of_isOk (by decide +kernel : (lower "a.js" namesake).isOk = true)
  obtain ⟨subject, hsubject, hholding⟩ := holding_of_lower hlower
  have hchanges : (examine "a.js" namesake).toOption.map (fun subject =>
      (Plan.make subject).changes.map (·.2.text)) =
        some ["var ns = require(\"./f.js\");", "", "ns.default",
          "\n" ++ Statement.text .mark ++ "\n" ++ (Statement.getter "g" "g").text ++ "\n"] := by
    decide +kernel
  have hcaptured : (examine "a.js" namesake).toOption.all (fun subject =>
      (usesIn subject.program.inside).all fun use =>
        (Analysis.ofOccurrences (.enter .function ::
          (Plan.make subject).inside subject.program fun _ => "ns")).scopes.all fun scope =>
            ⟨⟨"ns", use.id.span⟩, use.role⟩ ∉ scope.waiting) = true := by
    decide +kernel
  rw [hsubject] at hchanges hcaptured
  refine ⟨lowered, hlower, subject, hsubject, Option.some.inj hchanges, ?_, hholding⟩
  rintro use huse binding ⟨scope, hscopes, hwaiting, -⟩
  have hnone := List.all_eq_true.1 hcaptured use huse
  rw [hscopes] at hnone
  exact of_decide_eq_true (List.all_eq_true.1 hnone scope (.head _)) hwaiting

end Bundler

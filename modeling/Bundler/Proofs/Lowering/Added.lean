import Bundler.Proofs.Lowering.FreshName
import Bundler.Proofs.Lowering.Names

/-!
# The names that are added to a module

What is added to a module binds names of two kinds. Where the module imports another one as a whole,
its own name for it is bound. All others are fresh: each is bound once, and none is a name of the
module. The values of the names that are imported one by one are properties of such variables.

* `TopLevel.whole?`: the variable for a module that is imported as a whole;
* `IsBacked`: the value of a name is a property of a variable that is bound for its import;
* `Plan.Binds`: what a plan binds, and the values that it knows;
* `Plan.binds_make`: what is bound in a lowered module;
* `Plan.exists_imported`, `Plan.exists_value`: just the names that are imported have values.
-/

namespace Bundler

open Script Lowering

/-- The name for a whole module is one that is bound to it. -/
theorem Lowering.Plan.exists_of_wholeName? {specifiers : List ImportSpecifier} {name : String}
    (h : wholeName? specifiers = some name) :
    ∃ id, .wholeModule id ∈ specifiers ∧ id.name = name := by
  obtain ⟨specifier, hmem, hwhole⟩ := List.exists_of_findSome?_eq_some h
  cases specifier with
  | wholeModule id => exact ⟨id, hmem, Option.some.inj hwhole⟩
  | _ => cases hwhole

namespace Script

/-- The names that a statement imports from a module one by one, with the exports. -/
def TopLevel.imported : TopLevel → List (Ident × String)
  | .importFrom _ specifiers _ => Plan.importedNames (specifiers.getD [])
  | _ => []

/-- The names that a module imports one by one, with the exports. -/
def Program.imported (program : Program) : List (Ident × String) :=
  program.body.flatMap TopLevel.imported

/-- The variable for another module that a statement imports as a whole, in the place of the
    statement. -/
def TopLevel.whole? : TopLevel → Option (Ident × BindingKind)
  | .importFrom span specifiers _ =>
    (Plan.wholeName? (specifiers.getD [])).map fun name => (⟨name, span⟩, .var)
  | _ => none

/-- A module that is imported as a whole is imported by that name. -/
theorem TopLevel.mem_importsIn {specifiers : Option (List ImportSpecifier)} {id : Ident}
    (hmem : .wholeModule id ∈ specifiers.getD []) (span : Span) (source : Source)
    (around : Surroundings) :
    id ∈ importsIn id.name ((importFrom span specifiers source).occurrences around) := by
  have hbound : .bind id .imported ∈ (importFrom span specifiers source).occurrences around :=
    List.mem_flatMap.2 ⟨_, hmem, List.mem_append_right _ (.head _)⟩
  exact List.mem_filterMap.2 ⟨_, hbound, if_pos rfl⟩

theorem TopLevel.importsIn_of_whole? {statement : TopLevel} {bind : Ident × BindingKind}
    (h : statement.whole? = some bind) (around : Surroundings) :
    ∃ id, id ∈ importsIn bind.1.name (statement.occurrences around) := by
  cases statement with
  | importFrom span specifiers source =>
    obtain ⟨name, hname, rfl⟩ := Option.map_eq_some_iff.1 h
    obtain ⟨id, hmem, rfl⟩ := Plan.exists_of_wholeName? hname
    exact ⟨id, mem_importsIn hmem span source around⟩
  | _ => cases h

/-- What a statement imports is imported in the module. -/
theorem Program.mem_importsIn {program : Program} {statement : TopLevel} {name : String} {id : Ident}
    (hstatement : statement ∈ program.body)
    (h : id ∈ importsIn name (statement.occurrences around)) :
    id ∈ importsIn name program.inside := by
  obtain ⟨occurrence, hmem, hid⟩ := List.mem_filterMap.1 h
  exact List.mem_filterMap.2 ⟨occurrence,
    List.mem_append_right _ (List.mem_flatMap.2 ⟨statement, hstatement, hmem⟩), hid⟩

/-- A module is imported as a whole by a name at most as often as the name is imported. -/
theorem Program.length_wholes_le (program : Program) (name : String) :
    ((program.body.filterMap TopLevel.whole?).filter fun bind => bind.1.name == name).length ≤
      (importsIn name program.inside).length := by
  unfold inside
  rw [importsIn_append, List.length_append]
  refine Nat.le_add_left_of_le ?_
  induction program.body with
  | nil => exact Nat.le_refl 0
  | cons statement more ih =>
    rw [List.flatMap_cons, importsIn_append, List.length_append]
    cases hwhole : statement.whole? with
    | none =>
      rw [List.filterMap_cons_none hwhole]
      exact Nat.le_add_left_of_le ih
    | some bind =>
      rw [List.filterMap_cons_some hwhole, List.filter_cons]
      split
      next hname =>
        obtain ⟨id, himport⟩ := statement.importsIn_of_whole? hwhole around
        rw [eq_of_beq hname] at himport
        have := List.length_pos_of_mem himport
        rw [List.length_cons]
        omega
      · exact Nat.le_add_left_of_le ih

end Script

namespace Lowering

/-- The value of a name that is imported is a property of a variable that is bound in the place of the
    import, to the module that this one asks for. The variable has the name by which the import names
    the whole module, or else one that is not in the module. -/
def IsBacked (analysis : Analysis) (names : List String) (statements : List TopLevel)
    (changes : List (Span × Change)) (entry imported : Ident × String) : Prop :=
  ∃ span specifiers source holder,
    .importFrom span (some specifiers) source ∈ statements ∧
      imported ∈ Plan.importedNames specifiers ∧
      entry = (analysis.declarationOf imported.1, holder ++ memberOf imported.2) ∧
      (span, .statements [.bindRequire holder source.value.toText]) ∈ changes ∧
      (Plan.wholeName? specifiers).elim (holder ∉ names) (holder = ·)

theorem IsBacked.mono {analysis : Analysis} {names : List String} {statements more : List TopLevel}
    {changes others : List (Span × Change)} (hstatements : statements ⊆ more)
    (hchanges : changes ⊆ others) {entry imported : Ident × String}
    (h : IsBacked analysis names statements changes entry imported) :
    IsBacked analysis names more others entry imported := by
  obtain ⟨span, specifiers, source, holder, hstatement, himported, hvalue, hbound, hholder⟩ := h
  exact ⟨span, specifiers, source, holder, hstatements hstatement, himported, hvalue,
    hchanges hbound, hholder⟩

theorem Change.binds_of_isUse {change : Change} (h : change.isUse = true) : change.binds = [] := by
  unfold isUse at h
  split at h <;> first | rfl | cases h

namespace Plan

/-- What is known of a plan for a module with some names, when some of its statements are lowered. -/
structure Binds (analysis : Analysis) (names : List String) (statements : List TopLevel)
    (plan : Plan) : Prop where
  /-- The names of the module are taken. -/
  taken : names ⊆ plan.taken
  /-- So are those that are bound. -/
  bound : ∀ bind ∈ plan.binds, bind.1.name ∈ plan.taken
  /-- A name of the module is bound where it names another module as a whole. -/
  own : (plan.binds.filter fun bind => decide (bind.1.name ∈ names)) =
    statements.filterMap TopLevel.whole?
  /-- The others start with an underscore. -/
  head? : ∀ bind ∈ plan.binds, bind.1.name ∉ names → bind.1.name.toList.head? = some '_'
  /-- No two of them are alike. -/
  once : ((plan.binds.filter fun bind => !decide (bind.1.name ∈ names)).map (·.1.name)).Nodup
  /-- The values are those of the names that the statements import. -/
  backed : List.Forall₂ (IsBacked analysis names statements plan.changes) plan.values
    (statements.flatMap TopLevel.imported)

theorem binds_change (plan : Plan) (span : Span) (change : Change) :
    (plan.change span change).binds =
      plan.binds ++ change.binds.map fun (name, kind) => (⟨name, span⟩, kind) := by
  rw [binds, Plan.change, List.flatMap_append, List.flatMap_singleton, binds]

theorem binds_require (plan : Plan) (specifier : String) :
    (plan.require specifier).binds = plan.binds := by
  rw [binds, changes_require, binds]

namespace Binds

variable {analysis : Analysis} {names : List String} {statements : List TopLevel}
  {plan next : Plan}

/-- Nothing is bound, and no value is known. -/
theorem of_nil (htaken : names ⊆ plan.taken) (hbinds : plan.binds = [])
    (hvalues : plan.values = []) : Binds analysis names [] plan where
  taken := htaken
  bound := hbinds ▸ nofun
  own := by rw [hbinds]; rfl
  head? := hbinds ▸ nofun
  once := by rw [hbinds]; exact .nil
  backed := hvalues ▸ .nil

/-- Nothing is bound in a step. -/
theorem quiet (h : Binds analysis names statements plan) (hbinds : next.binds = plan.binds)
    (hkept : plan.changes ⊆ next.changes) (htaken : next.taken = plan.taken)
    (hvalues : next.values = plan.values) : Binds analysis names statements next where
  taken := htaken ▸ h.taken
  bound := by rw [hbinds, htaken]; exact h.bound
  own := hbinds ▸ h.own
  head? := hbinds ▸ h.head?
  once := hbinds ▸ h.once
  backed := hvalues ▸ h.backed.imp fun _ _ => .mono (List.Subset.refl _) hkept

/-- A fresh name is bound. -/
theorem fresh (h : Binds analysis names statements plan) {base : String} {span : Span}
    {kind : BindingKind} (hbase : base.toList.head? = some '_')
    (hbinds : next.binds = plan.binds ++ [(⟨FreshName.choose plan.taken base, span⟩, kind)])
    (hkept : plan.changes ⊆ next.changes)
    (htaken : next.taken = FreshName.choose plan.taken base :: plan.taken)
    (hvalues : next.values = plan.values) : Binds analysis names statements next := by
  have hfree := FreshName.choose_notMem plan.taken base
  have hhead := FreshName.head?_choose plan.taken hbase
  generalize FreshName.choose plan.taken base = name at hbinds htaken hfree hhead
  have hforeign : name ∉ names := fun hmem => hfree (h.taken hmem)
  exact {
    taken := fun own hown => htaken ▸ List.mem_cons_of_mem _ (h.taken hown)
    bound := by
      rw [hbinds, htaken, List.forall_mem_append]
      exact ⟨fun bind hbind => .tail _ (h.bound bind hbind), List.forall_mem_singleton.2 (.head _)⟩
    own := by
      rw [hbinds, List.filter_append, List.filter_singleton, decide_eq_false hforeign]
      simpa using h.own
    head? := by
      rw [hbinds, List.forall_mem_append]
      exact ⟨h.head?, List.forall_mem_singleton.2 fun _ => hhead⟩
    once := by
      rw [hbinds, List.filter_append, List.filter_singleton, decide_eq_false hforeign,
        List.map_append]
      refine List.nodup_append.2 ⟨h.once, List.nodup_singleton _, ?_⟩
      rintro old hold _ hsame rfl
      obtain rfl : old = name := List.mem_singleton.1 hsame
      obtain ⟨bind, hbind, rfl⟩ := List.mem_map.1 hold
      exact hfree (h.bound bind (List.mem_filter.1 hbind).1)
    backed := hvalues ▸ h.backed.imp fun _ _ => .mono (List.Subset.refl _) hkept }

/-- The names that one more statement imports are given values. -/
theorem backed_concat (h : Binds analysis names statements plan) {statement : TopLevel}
    {changes : List (Span × Change)} (hkept : plan.changes ⊆ changes)
    {added : List (Ident × String)}
    (hadded : List.Forall₂ (IsBacked analysis names (statements ++ [statement]) changes) added
      statement.imported) :
    List.Forall₂ (IsBacked analysis names (statements ++ [statement]) changes)
      (plan.values ++ added) ((statements ++ [statement]).flatMap TopLevel.imported) := by
  rw [List.flatMap_append, List.flatMap_singleton]
  exact List.rel_append
    (h.backed.imp fun _ _ => .mono (List.subset_append_left _ _) hkept) hadded

/-- A name of the module is bound where it names another module as a whole. -/
theorem whole (h : Binds analysis names statements plan) {statement : TopLevel}
    {bind : Ident × BindingKind} (hwhole : statement.whole? = some bind) (hname : bind.1.name ∈ names)
    (hbinds : next.binds = plan.binds ++ [bind]) (hkept : plan.changes ⊆ next.changes)
    (htaken : next.taken = plan.taken) {added : List (Ident × String)}
    (hvalues : next.values = plan.values ++ added)
    (hadded : List.Forall₂ (IsBacked analysis names (statements ++ [statement]) next.changes) added
      statement.imported) : Binds analysis names (statements ++ [statement]) next where
  taken := htaken ▸ h.taken
  bound := by
    rw [hbinds, htaken, List.forall_mem_append]
    exact ⟨h.bound, List.forall_mem_singleton.2 (h.taken hname)⟩
  own := by
    rw [hbinds, List.filter_append, List.filter_singleton, decide_eq_true hname, h.own,
      List.filterMap_append, List.filterMap_cons_some hwhole]
    rfl
  head? := by
    rw [hbinds, List.forall_mem_append]
    exact ⟨h.head?, List.forall_mem_singleton.2 fun hforeign => absurd hname hforeign⟩
  once := by
    rw [hbinds, List.filter_append, List.filter_singleton, decide_eq_true hname]
    simpa using h.once
  backed := hvalues ▸ h.backed_concat hkept hadded

/-- A statement that imports no whole module gives values to the names that it imports. -/
theorem pass (h : Binds analysis names statements plan) {statement : TopLevel}
    (hnone : statement.whole? = none) (hbinds : next.binds = plan.binds)
    (hkept : plan.changes ⊆ next.changes) (htaken : next.taken = plan.taken)
    {added : List (Ident × String)} (hvalues : next.values = plan.values ++ added)
    (hadded : List.Forall₂ (IsBacked analysis names (statements ++ [statement]) next.changes) added
      statement.imported) : Binds analysis names (statements ++ [statement]) next where
  taken := htaken ▸ h.taken
  bound := by rw [hbinds, htaken]; exact h.bound
  own := by
    rw [hbinds, h.own, List.filterMap_append, List.filterMap_cons_none hnone]
    exact (List.append_nil _).symm
  head? := hbinds ▸ h.head?
  once := hbinds ▸ h.once
  backed := hvalues ▸ h.backed_concat hkept hadded

/-- A statement that imports no names may be among those that are lowered. -/
theorem skip (h : Binds analysis names statements plan) {statement : TopLevel}
    (hnone : statement.whole? = none) (himported : statement.imported = []) :
    Binds analysis names (statements ++ [statement]) plan :=
  h.pass hnone rfl (List.Subset.refl _) rfl (List.append_nil _).symm
    (by rw [himported]; exact .nil)

/-- A change is made that binds nothing. -/
theorem change (h : Binds analysis names statements plan) {span : Span} {change : Change}
    (hnone : change.binds = []) : Binds analysis names statements (plan.change span change) :=
  h.quiet (by rw [binds_change, hnone, List.map_nil, List.append_nil])
    (List.subset_append_left _ _) rfl rfl

/-- A module is asked for. -/
theorem require (h : Binds analysis names statements plan) (specifier : String) :
    Binds analysis names statements (plan.require specifier) :=
  h.quiet (binds_require plan specifier) (changes_require plan specifier ▸ List.Subset.refl _)
    (taken_require _ _) (values_require _ _)

/-! ### Imports -/

/-- The values that an import gives to names belong to its variable. -/
theorem isBacked_of_import {changes : List (Span × Change)} {span : Span}
    {specifiers : List ImportSpecifier} {source : Source} {holder : String}
    (hstatement : .importFrom span (some specifiers) source ∈ statements)
    (hbound : (span, .statements [.bindRequire holder source.value.toText]) ∈ changes)
    (hholder : (wholeName? specifiers).elim (holder ∉ names) (holder = ·)) :
    List.Forall₂ (IsBacked analysis names statements changes)
      ((importedNames specifiers).map fun (id, name) =>
        (analysis.declarationOf id, holder ++ memberOf name)) (importedNames specifiers) :=
  List.forall₂_map_left_iff.2 (List.forall₂_same.2 fun _ himported =>
    ⟨span, specifiers, source, holder, hstatement, himported, rfl, hbound, hholder⟩)

theorem importFrom (h : Binds analysis names statements plan) (span : Span)
    (specifiers : Option (List ImportSpecifier)) (source : Source)
    (hown : ∀ bind ∈ (TopLevel.importFrom span specifiers source).whole?, bind.1.name ∈ names) :
    Binds analysis names (statements ++ [.importFrom span specifiers source])
      (importFrom analysis plan span (specifiers.getD []) source.value.toText) := by
  have hrequire := h.require source.value.toText
  have hwhole : (TopLevel.importFrom span specifiers source).whole? =
      (wholeName? (specifiers.getD [])).map fun name => (⟨name, span⟩, .var) := rfl
  unfold Plan.importFrom
  generalize plan.require source.value.toText = asked at hrequire
  cases hnames : specifiers.getD [] with
  | nil =>
    rw [hnames] at hwhole
    exact (hrequire.skip hwhole (congrArg importedNames hnames)).change rfl
  | cons first more =>
    obtain rfl : specifiers = some (first :: more) := by
      cases specifiers with
      | none => cases hnames
      | some => exact congrArg some hnames
    have hlast : TopLevel.importFrom span (some (first :: more)) source ∈
        statements ++ [.importFrom span (some (first :: more)) source] :=
      List.mem_append_right _ (.head _)
    rw [Option.getD_some] at hwhole
    rw [if_neg nofun]
    cases hname : wholeName? (first :: more) with
    | some name =>
      rw [hname] at hwhole
      refine hrequire.whole hwhole (hown _ hwhole) (binds_change _ _ _)
        (List.subset_append_left _ _) rfl rfl
        (isBacked_of_import hlast (List.mem_append_right _ (.head _)) ?_)
      rw [hname]
      rfl
    | none =>
      rw [hname] at hwhole
      have hbinds := binds_change (asked.fresh (FreshName.base source.value.toText)).2 span
        (.statements [.bindRequire (asked.fresh (FreshName.base source.value.toText)).1
          source.value.toText])
      have hfresh := hrequire.fresh (FreshName.head?_base _) hbinds (List.subset_append_left _ _)
        rfl rfl
      refine hfresh.pass hwhole rfl (List.Subset.refl _) rfl rfl
        (isBacked_of_import hlast (List.mem_append_right _ (.head _)) ?_)
      rw [hname]
      exact fun hmem => FreshName.choose_notMem _ _ (hrequire.taken hmem)

theorem importsOf (h : Binds analysis names statements plan) {body : List TopLevel}
    (hown : ∀ bind ∈ body.filterMap TopLevel.whole?, bind.1.name ∈ names) :
    Binds analysis names (statements ++ body) (importsOf analysis plan body) := by
  induction body generalizing plan statements with
  | nil => rwa [List.append_nil]
  | cons statement more ih =>
    have hfirst : ∀ bind ∈ statement.whole?, bind.1.name ∈ names :=
      fun bind hbind => hown bind (List.mem_filterMap.2 ⟨_, .head _, hbind⟩)
    have hmore : ∀ bind ∈ more.filterMap TopLevel.whole?, bind.1.name ∈ names := by
      intro bind hbind
      obtain ⟨other, hother, hbind⟩ := List.mem_filterMap.1 hbind
      exact hown bind (List.mem_filterMap.2 ⟨other, .tail _ hother, hbind⟩)
    rw [List.append_cons]
    cases statement with
    | importFrom span specifiers source => exact ih (h.importFrom span specifiers source hfirst) hmore
    | _ => exact ih (h.skip rfl rfl) hmore

/-! ### Exports -/

/-- Exports of the module's own names bind nothing. -/
theorem exportAs (h : Binds analysis names statements plan) {α : Type} (name : α → String)
    (value : Plan → α → String) (exported : List α) :
    Binds analysis names statements
      (exported.foldl (fun plan one => plan.exportAs (name one) (value plan one)) plan) := by
  obtain ⟨_, hsame⟩ := foldl_exportAs_eq name value exported plan
  rw [hsame]
  exact h.quiet rfl (List.Subset.refl _) rfl rfl

/-- A change is made that binds a fresh name. -/
theorem changeFresh (h : Binds analysis names statements plan) {base : String} (span : Span)
    {change : Change} {kind : BindingKind} (hbase : base.toList.head? = some '_')
    (hbind : change.binds = [((plan.fresh base).1, kind)]) :
    Binds analysis names statements ((plan.fresh base).2.change span change) := by
  have hbinds : ((plan.fresh base).2.change span change).binds =
      plan.binds ++ [(⟨(plan.fresh base).1, span⟩, kind)] := by
    rw [binds_change, hbind]
    rfl
  exact h.fresh hbase hbinds (List.subset_append_left _ _) rfl rfl

/-- A module is asked for, and bound to a fresh name, and statements that bind nothing follow. -/
theorem bindRequire (h : Binds analysis names statements plan) (span : Span) (specifier : String)
    {more : List Statement} (hmore : more.flatMap Statement.binds = []) :
    Binds analysis names statements
      (((plan.require specifier).fresh (FreshName.base specifier)).2.change span
        (.statements (.bindRequire
          ((plan.require specifier).fresh (FreshName.base specifier)).1 specifier :: more))) := by
  have hrequire := h.require specifier
  refine hrequire.changeFresh span (FreshName.head?_base specifier) (?_ : _ = [(_, .var)])
  rw [Change.binds, List.flatMap_cons, hmore]
  rfl

theorem binds_getters {α : Type} (specifiers : List α) (name value : α → String) :
    (specifiers.map fun one => Statement.getter (name one) (value one)).flatMap
      Statement.binds = [] := by
  rw [List.flatMap_map]
  exact List.flatMap_eq_nil_iff.2 fun _ _ => rfl

theorem exportDefault (h : Binds analysis names statements plan) (source : List Char) (span : Span)
    (value : Node) : Binds analysis names statements (exportDefault source plan span value) := by
  unfold Plan.exportDefault
  split
  · exact (h.change rfl).quiet rfl (List.Subset.refl _) rfl rfl
  · exact ((h.changeFresh _ rfl rfl).change rfl).quiet rfl (List.Subset.refl _) rfl rfl
  · exact (h.change rfl).quiet rfl (List.Subset.refl _) rfl rfl
  · unfold exportValue
    split
    · exact h.change rfl
    · exact (h.change rfl).change rfl

theorem exportsOf (h : Binds analysis names statements plan) (subject : Subject)
    (but : List String) (body : List TopLevel) :
    Binds analysis names statements (exportsOf subject but plan body) := by
  induction body generalizing plan with
  | nil => exact h
  | cons statement more ih =>
    refine ih ?_
    cases statement with
    | statement | importFrom => exact h
    | exportDeclaration => exact (h.change rfl).exportAs (fun name => name) (fun _ name => name) _
    | exportNames span specifiers source =>
      cases source with
      | none =>
        exact (h.exportAs (fun one : ExportSpecifier => one.exported.name) _ specifiers).change rfl
      | some source => exact h.bindRequire span source.value.toText (binds_getters specifiers _ _)
    | exportDefault span value => exact h.exportDefault _ span value
    | exportAll span exported source =>
      refine h.bindRequire span source.value.toText ?_
      cases exported <;> rfl

end Binds

/-- What a module imports has one of its names. -/
theorem mem_namesIn_of_import {program : Program} {name : String} {id : Ident}
    (h : id ∈ importsIn name program.inside) : name ∈ namesIn (program.occurrences .module) := by
  obtain ⟨occurrence, hmem, hid⟩ := List.mem_filterMap.1 h
  have hoccurs : occurrence ∈ program.occurrences .module := by
    rw [Program.occurrences_module]
    exact List.mem_append_left _ (List.mem_append_right _ hmem)
  refine List.mem_filterMap.2 ⟨occurrence, hoccurs, ?_⟩
  split at hid
  · split at hid
    next hname => exact congrArg some hname
    · cases hid
  · cases hid

/-- What is bound when the statements of a module are lowered. -/
theorem binds_written {subject : Subject}
    (hoccurrences : subject.occurrences = subject.program.occurrences .module) :
    Binds subject.analysis (namesIn subject.occurrences) subject.program.body
      (written subject) := by
  have hopening : Binds subject.analysis (namesIn subject.occurrences) [] (opening subject) := by
    rw [opening_eq]
    refine .of_nil (List.Subset.refl _) ?_ rfl
    rw [binds, List.flatMap_map]
    exact List.flatMap_eq_nil_iff.2 fun _ _ => rfl
  refine (hopening.importsOf fun bind hbind => ?_).exportsOf _ _ _
  obtain ⟨statement, hstatement, hwhole⟩ := List.mem_filterMap.1 hbind
  obtain ⟨id, himport⟩ := statement.importsIn_of_whole? hwhole _
  exact hoccurrences ▸ mem_namesIn_of_import (Program.mem_importsIn hstatement himport)

/-- Changes to uses, and what stands before the statements, bind nothing. -/
theorem binds_make_eq (subject : Subject) : (make subject).binds = (written subject).binds := by
  have huses : ∀ one ∈ usesOf subject.source (written subject) subject.analysis.found.reverse,
      one.2.binds = [] :=
    fun one hone => Change.binds_of_isUse (usesOf_changes one hone).1
  have hprologue : ∀ one ∈ prologueOf subject.program (written subject).exports,
      one.2.binds = [] := by
    unfold prologueOf
    split
    · exact List.forall_mem_nil _
    · exact List.forall_mem_singleton.2 rfl
  rw [make_eq, binds, List.append_assoc, List.flatMap_append, binds]
  refine (congrArg _ (List.flatMap_eq_nil_iff.2 fun one hone => ?_)).trans (List.append_nil _)
  dsimp only
  rw [List.forall_mem_append.2 ⟨huses, hprologue⟩ one hone]
  rfl

/-- What is bound in a lowered module, and what the values of its imports are. -/
theorem binds_make {subject : Subject}
    (hoccurrences : subject.occurrences = subject.program.occurrences .module) :
    Binds subject.analysis (namesIn subject.occurrences) subject.program.body (make subject) :=
  (binds_written hoccurrences).quiet (binds_make_eq subject)
    (by rw [make_eq]; exact List.subset_append_of_subset_left _ (List.subset_append_left _ _))
    (by rw [make_eq]) (by rw [make_eq])

/-! ### The values of imported names -/

/-- What has a value is imported, and the value is that of the import. -/
theorem exists_imported {subject : Subject}
    (hoccurrences : subject.occurrences = subject.program.occurrences .module) {declared : Ident}
    {value : String} (h : (written subject).value? (some declared) = some value) :
    ∃ imported ∈ subject.program.imported, IsBacked subject.analysis (namesIn subject.occurrences)
      subject.program.body (make subject).changes (declared, value) imported := by
  obtain ⟨before, after, hvalues, -⟩ := List.lookup_eq_some_iff.1 h
  refine exists_of_forall₂ (binds_make hoccurrences).backed ?_
  rw [make_eq, hvalues]
  exact List.mem_append_right _ (.head _)

/-- A name that is imported has a value. -/
theorem exists_value {subject : Subject}
    (hoccurrences : subject.occurrences = subject.program.occurrences .module) {declared : Ident}
    (h : declared ∈ subject.program.imported.map fun one => subject.analysis.declarationOf one.1) :
    ∃ value, (written subject).value? (some declared) = some value := by
  obtain ⟨imported, himported, rfl⟩ := List.mem_map.1 h
  have hbacked : List.Forall₂ (flip _) _ _ := (binds_make hoccurrences).backed.flip
  obtain ⟨entry, hentry, _, _, _, _, -, -, rfl, -⟩ := exists_of_forall₂ hbacked himported
  rw [make_eq] at hentry
  exact Option.isSome_iff_exists.1 (List.lookup_isSome_iff.2 ⟨_, hentry, beq_self_eq_true _⟩)

end Plan

end Lowering

end Bundler

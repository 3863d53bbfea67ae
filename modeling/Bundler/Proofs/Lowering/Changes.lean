import Bundler.Proofs.Graph.Table
import Bundler.Proofs.Lowering.Pieces
import Bundler.Proofs.Script.Uses

/-!
# The changes to a module

Each statement of a module that imports from another one, or exports from it, is changed once, as a
whole, and the change asks for that module. The names under which a statement exports are
defined where it stands, or noted for the prologue.

* `TopLevel.asks`, `ownNames`: what a statement asks for, and the names under which it exports;
* `Plan.Lowers`, `Plan.LowersAll`: what lowering a statement, or statements, adds to a plan;
* `Plan.make_changes`: all changes to a module;
* `Plan.make_requests`, `Plan.make_specifiers`, `Plan.make_defines`: what they ask for and define.
-/

namespace Bundler

namespace Script

namespace TopLevel

/-- The module that a statement imports or exports from, with the place of the statement. -/
def asks : TopLevel → Option (Span × String)
  | .importFrom span _ source | .exportNames span _ (some source) | .exportAll span _ source =>
    some (span, source.value.toText)
  | _ => none

/-- The offsets at which a statement may be cut, and those at which its names start and end. -/
def spots (statement : TopLevel) : List Nat :=
  statement.cuts ++ statement.idents.flatMap fun id => [id.span.start, id.span.stop]

variable {statement : TopLevel} {ask : Span × String}

theorem cuts_of_asks (h : statement.asks = some ask) :
    statement.cuts = [ask.1.start, ask.1.stop] := by
  unfold asks at h
  split at h
  · cases h
    rfl
  · cases h
    rfl
  · cases h
    rfl
  · cases h

/-- A stretch between the first two cuts of a statement, or an empty one at another cut. -/
def IsCut (statement : TopLevel) (span : Span) : Prop :=
  (∃ more, statement.cuts = span.start :: span.stop :: more) ∨
    span.start = span.stop ∧ span.start ∈ statement.cuts.drop 2

theorem IsCut.mem {span : Span} (h : statement.IsCut span) :
    span.start ∈ statement.cuts ∧ span.stop ∈ statement.cuts := by
  rcases h with ⟨more, h⟩ | ⟨heq, h⟩
  · rw [h]
    exact ⟨.head _, .tail _ (.head _)⟩
  · have hmem := List.mem_of_mem_drop h
    exact ⟨hmem, heq ▸ hmem⟩

theorem spots_of_ident {id : Ident} (h : id ∈ statement.idents) :
    id.span.start ∈ statement.spots ∧ id.span.stop ∈ statement.spots := by
  have hmem : ∀ spot ∈ [id.span.start, id.span.stop], spot ∈ statement.spots := fun spot hspot =>
    List.mem_append_right _ (List.mem_flatMap.2 ⟨id, h, hspot⟩)
  exact ⟨hmem _ (.head _), hmem _ (.tail _ (.head _))⟩

theorem Stands.spots {lo hi : Nat} (h : statement.Stands lo hi) :
    ∀ spot ∈ statement.spots, lo ≤ spot ∧ spot ≤ hi := by
  intro spot hspot
  rcases List.mem_append.1 hspot with hspot | hspot
  · exact h.bounds spot hspot
  obtain ⟨id, hid, hspot⟩ := List.mem_flatMap.1 hspot
  have hbounds := h.chain.bounds id hid
  have hfilled := h.chain.filled id hid
  simp only [List.mem_cons, List.not_mem_nil, or_false] at hspot
  omega

/-- All spots of a statement stand before those of another one. -/
def Precedes (one other : TopLevel) : Prop :=
  ∀ spot ∈ one.spots, ∀ next ∈ other.spots, spot ≤ next

end TopLevel

/-- Statements that stand one after another have their spots so. -/
theorem StandIn.spots {lo hi : Nat} {body : List TopLevel} (h : StandIn lo body hi) :
    (∀ statement ∈ body, ∀ spot ∈ statement.spots, lo ≤ spot) ∧
      body.Pairwise TopLevel.Precedes := by
  induction body generalizing lo with
  | nil => exact ⟨nofun, .nil⟩
  | cons first more ih =>
    obtain ⟨mid, hmid, hfirst, hmore⟩ := h
    obtain ⟨hbounds, hordered⟩ := ih hmore
    refine ⟨?_, .cons ?_ hordered⟩
    · intro statement hmem spot hspot
      rcases List.mem_cons.1 hmem with rfl | hmem
      · exact (hfirst.spots spot hspot).1
      · exact Nat.le_trans hmid (hbounds statement hmem spot hspot)
    · intro other hother spot hspot next hnext
      exact Nat.le_trans (hfirst.spots spot hspot).2 (hbounds other hother next hnext)

/-- Each of the statements stands behind the offset from which on they stand. -/
theorem StandIn.stands_behind {lo hi : Nat} {body : List TopLevel} (h : StandIn lo body hi)
    {statement : TopLevel} (hmem : statement ∈ body) :
    ∃ lo' hi', lo ≤ lo' ∧ statement.Stands lo' hi' := by
  induction body generalizing lo with
  | nil => cases hmem
  | cons first more ih =>
    obtain ⟨mid, hmid, hfirst, hmore⟩ := h
    rcases List.mem_cons.1 hmem with rfl | hmem
    · exact ⟨_, _, Nat.le_refl _, hfirst⟩
    · obtain ⟨lo', hi', hle, hstands⟩ := ih hmore hmem
      exact ⟨lo', hi', Nat.le_trans hmid hle, hstands⟩

theorem StandIn.stands {lo hi : Nat} {body : List TopLevel} (h : StandIn lo body hi)
    {statement : TopLevel} (hmem : statement ∈ body) : ∃ lo hi, statement.Stands lo hi := by
  obtain ⟨lo', hi', -, hstands⟩ := h.stands_behind hmem
  exact ⟨lo', hi', hstands⟩

namespace Program

variable {program : Program}

/-- The modules that a module asks for, each with the place of its statement. -/
def asks (program : Program) : List (Span × String) :=
  program.body.filterMap TopLevel.asks

/-- A statement that asks for a module takes something. -/
theorem Stands.asks_filled (h : program.Stands) {ask : Span × String} (hask : ask ∈ program.asks) :
    ask.1.start < ask.1.stop := by
  obtain ⟨-, lo, hi, -, hbody, -, -⟩ := h.body
  obtain ⟨statement, hmem, hasks⟩ := List.mem_filterMap.1 hask
  obtain ⟨_, _, hstands⟩ := hbody.stands hmem
  exact (hstands.ordered _ _ _ (TopLevel.cuts_of_asks hasks)).1

/-- Statements that ask for modules stand one after another. -/
theorem Stands.asks_ordered (h : program.Stands) :
    program.asks.Pairwise fun one other => one.1.stop ≤ other.1.start := by
  obtain ⟨-, lo, hi, -, hbody, -, -⟩ := h.body
  refine List.pairwise_filterMap.2 (hbody.spots.2.imp ?_)
  intro one other hspots ask hask next hnext
  apply hspots
  · refine List.mem_append_left _ ?_
    rw [TopLevel.cuts_of_asks hask]
    exact .tail _ (.head _)
  · refine List.mem_append_left _ ?_
    rw [TopLevel.cuts_of_asks hnext]
    exact .head _

theorem Stands.asks_sorted (h : program.Stands) :
    program.asks.Pairwise fun one other => one.1.start < other.1.start :=
  h.asks_ordered.imp_of_mem fun hone _ hle => Nat.lt_of_lt_of_le (h.asks_filled hone) hle

/-- No two statements that ask for modules start at one place. -/
theorem Stands.asks_unique (h : program.Stands) {one other : Span × String}
    (hone : one ∈ program.asks) (hother : other ∈ program.asks)
    (hstart : one.1.start = other.1.start) : one = other := by
  have := List.Pairwise.forall_of_forall_of_flip
    (R := fun one other : Span × String => one.1.start = other.1.start → one = other)
    (fun _ _ _ => rfl) (h.asks_sorted.imp fun hlt heq => absurd heq (Nat.ne_of_lt hlt))
    (h.asks_sorted.imp fun hlt heq => absurd heq (Nat.ne_of_gt hlt)) hone hother
  exact this hstart

end Program

end Script

namespace Lowering

open Script

/-- Whether a change is made to a use of what is imported. -/
def Change.isUse : Change → Bool
  | .member _ | .called _ | .property _ _ => true
  | _ => false

section

variable {change : Change} (h : change.isUse = true)

include h

theorem Change.requires_of_isUse : change.requires = [] := by
  unfold isUse at h
  split at h <;> first | rfl | cases h

theorem Change.defines_of_isUse : change.defines = [] := by
  unfold isUse at h
  split at h <;> first | rfl | cases h

end

/-! ### Statements -/

namespace Plan

/-- The names under which a statement exports, the default export among them. -/
def ownNames (analysis : Analysis) : TopLevel → List String
  | .exportDefault _ _ => [TopLevel.defaultName]
  | statement => explicitNames analysis statement

/-- To ask for one more module changes nothing else. -/
theorem require_eq (plan : Plan) (specifier : String) :
    plan.require specifier = { plan with specifiers := (plan.require specifier).specifiers } := by
  unfold require
  split <;> rfl

theorem changes_require (plan : Plan) (specifier : String) :
    (plan.require specifier).changes = plan.changes := by
  rw [require_eq]

theorem values_require (plan : Plan) (specifier : String) :
    (plan.require specifier).values = plan.values := by
  rw [require_eq]

theorem exports_require (plan : Plan) (specifier : String) :
    (plan.require specifier).exports = plan.exports := by
  rw [require_eq]

theorem specifiers_require (plan : Plan) (specifier : String) :
    (plan.require specifier).specifiers =
      if specifier ∈ plan.specifiers then plan.specifiers else plan.specifiers ++ [specifier] := by
  unfold require
  rw [List.contains_eq_mem]
  split
  next h => rw [if_pos (of_decide_eq_true h)]
  next h => rw [if_neg fun hmem => h (decide_eq_true hmem)]

/-- The names that a module defines on its exports by a plan, as far as it is made. -/
def promised (plan : Plan) : List String :=
  plan.exports.map (·.1) ++ plan.changes.flatMap (·.2.defines)

theorem promised_perm {before after : Plan} {names : List String} {added : List (Span × Change)}
    (hexports : after.exports.map (·.1) = before.exports.map (·.1) ++ names)
    (hchanges : after.changes = before.changes ++ added) :
    (promised after).Perm (promised before ++ (names ++ added.flatMap (·.2.defines))) := by
  unfold promised
  rw [hexports, hchanges, List.flatMap_append, List.append_assoc, List.append_assoc]
  refine List.Perm.append_left _ ?_
  rw [← List.append_assoc, ← List.append_assoc]
  exact List.Perm.append_right _ List.perm_append_comm

/-- The changes that lowering a statement adds. -/
structure Adds (statement : TopLevel) (added : List (Span × Change)) : Prop where
  /-- They ask for what the statement asks for. -/
  requests : added.flatMap requests = statement.asks.toList
  /-- They stand where the statement may be cut. -/
  cuts : ∀ one ∈ added, statement.IsCut one.1
  /-- All but one of them take nothing away. -/
  empty : added.Pairwise fun one other => one.1.start = one.1.stop ∨ other.1.start = other.1.stop
  /-- A list of exported names is taken away as a whole. -/
  list : ∀ span specifiers, statement = .exportNames span specifiers none →
    added = [(span, .erased)]
  /-- None of them is made to a use. -/
  plain : ∀ one ∈ added, one.2.isUse = false

/-- What lowering a statement adds to a plan. -/
structure Lowers (analysis : Analysis) (statement : TopLevel) (before after : Plan) : Prop where
  /-- The changes. -/
  changes : ∃ added, after.changes = before.changes ++ added ∧ Adds statement added
  /-- The module that the statement asks for is asked for. -/
  specifiers : after.specifiers =
    (statement.asks.elim before fun ask => before.require ask.2).specifiers
  /-- The names under which the statement exports are defined. -/
  promises : (promised after).Perm (promised before ++ ownNames analysis statement)

theorem exists_of_forall₂ {α β : Type} {related : α → β → Prop} {list : List α} {others : List β}
    (h : List.Forall₂ related list others) {one : α} (hone : one ∈ list) :
    ∃ other ∈ others, related one other := by
  induction h with
  | nil => cases hone
  | cons hfirst _ ih =>
    rcases List.mem_cons.1 hone with rfl | hone
    · exact ⟨_, .head _, hfirst⟩
    · obtain ⟨other, hother, hrelated⟩ := ih hone
      exact ⟨other, .tail _ hother, hrelated⟩

/-- What the changes of statements together ask for. -/
theorem requests_flatten {statements : List TopLevel} {parts : List (List (Span × Change))}
    (h : List.Forall₂ Adds statements parts) :
    parts.flatten.flatMap requests = statements.filterMap TopLevel.asks := by
  induction h with
  | nil => rfl
  | @cons statement _ _ _ hfirst _ ih =>
    rw [List.flatten_cons, List.flatMap_append, hfirst.requests, ih, List.filterMap_cons]
    cases statement.asks <;> rfl

namespace Lowers

variable {analysis : Analysis} {statement : TopLevel} {before after : Plan}

/-- A statement that asks for a module is changed as a whole. -/
theorem ofAsk {span : Span} {specifier : String} {change : Change}
    (hasks : statement.asks = some (span, specifier))
    (hchanges : after.changes = before.changes ++ [(span, change)])
    (hrequires : change.requires = [specifier])
    (hspecifiers : after.specifiers = (before.require specifier).specifiers)
    (hexports : after.exports = before.exports)
    (hdefines : change.defines = ownNames analysis statement) :
    Lowers analysis statement before after where
  changes := by
    refine ⟨[(span, change)], hchanges, ?_, ?_, List.pairwise_singleton _ _, ?_,
      List.forall_mem_singleton.2 ?_⟩
    · rw [List.flatMap_singleton, requests, hrequires, hasks]
      rfl
    · intro one hone
      obtain rfl := List.mem_singleton.1 hone
      exact .inl ⟨[], TopLevel.cuts_of_asks hasks⟩
    · rintro _ _ rfl
      cases hasks
    · refine Bool.eq_false_iff.2 fun huse => ?_
      rw [Change.requires_of_isUse huse] at hrequires
      cases hrequires
  specifiers := by rw [hspecifiers, hasks]; rfl
  promises := by
    have hsame : after.exports.map (·.1) = before.exports.map (·.1) ++ [] := by
      rw [hexports, List.append_nil]
    have := promised_perm hsame hchanges
    rwa [List.nil_append, List.flatMap_singleton, hdefines] at this

/-- A statement that asks for nothing has changes that ask for nothing. -/
theorem ofQuiet (hasks : statement.asks = none) {added : List (Span × Change)}
    {names : List String} (hchanges : after.changes = before.changes ++ added)
    (hrequests : added.flatMap requests = []) (hcuts : ∀ one ∈ added, statement.IsCut one.1)
    (hempty : added.Pairwise fun one other =>
      one.1.start = one.1.stop ∨ other.1.start = other.1.stop)
    (hspecifiers : after.specifiers = before.specifiers)
    (hexports : after.exports.map (·.1) = before.exports.map (·.1) ++ names)
    (hdefines : names ++ added.flatMap (·.2.defines) = ownNames analysis statement)
    (hlist : ∀ span specifiers, statement = .exportNames span specifiers none →
      added = [(span, .erased)]) (hplain : (added.all fun one => !one.2.isUse) = true) :
    Lowers analysis statement before after where
  changes := ⟨added, hchanges, by rw [hrequests, hasks]; rfl, hcuts, hempty, hlist,
    fun one hone => by simpa using List.all_eq_true.1 hplain one hone⟩
  specifiers := by rw [hspecifiers, hasks]; rfl
  promises := hdefines ▸ promised_perm hexports hchanges

end Lowers

theorem importFrom_lowers (analysis : Analysis) (plan : Plan) (span : Span)
    (specifiers : Option (List ImportSpecifier)) (source : Source) :
    Lowers analysis (.importFrom span specifiers source) plan
      (importFrom analysis plan span (specifiers.getD []) source.value.toText) := by
  have hchanges := changes_require plan source.value.toText
  have hexports := exports_require plan source.value.toText
  unfold importFrom
  split
  · exact .ofAsk rfl (congrArg (· ++ _) hchanges) rfl rfl hexports rfl
  · split
    · exact .ofAsk rfl (congrArg (· ++ _) hchanges) rfl rfl hexports rfl
    · exact .ofAsk rfl (congrArg (· ++ _) hchanges) rfl rfl hexports rfl

section

variable {α : Type} (specifiers : List α) (name value : α → String)

theorem requires_getters :
    (specifiers.map fun one => Statement.getter (name one) (value one)).flatMap
      Statement.requires = [] := by
  rw [List.flatMap_map]
  exact List.flatMap_eq_nil_iff.2 fun _ _ => rfl

theorem defines_getters :
    (specifiers.map fun one => Statement.getter (name one) (value one)).flatMap
      Statement.defines = specifiers.map name := by
  rw [List.flatMap_map]
  exact List.map_eq_flatMap.symm

end

theorem reExport_lowers (analysis : Analysis) (plan : Plan) (span : Span)
    (specifiers : List ExportSpecifier) (source : Source) :
    Lowers analysis (.exportNames span specifiers (some source)) plan
      (reExport plan span specifiers source.value.toText) := by
  refine .ofAsk rfl (congrArg (· ++ _) (changes_require _ _)) ?_ rfl (exports_require _ _) ?_
  · exact congrArg (_ :: ·) (requires_getters specifiers (·.exported.name) _)
  · exact defines_getters specifiers (·.exported.name) _

theorem reExportAll_lowers (analysis : Analysis) (plan : Plan) (span : Span)
    (exported : Option ModuleName) (but : List String) (source : Source) :
    Lowers analysis (.exportAll span exported source) plan
      (reExportAll plan span exported but source.value.toText) := by
  refine .ofAsk rfl (congrArg (· ++ _) (changes_require _ _)) ?_ rfl (exports_require _ _) ?_
  · cases exported <;> rfl
  · cases exported <;> rfl

/-- Exports of the module's own names are noted and change nothing else. -/
theorem foldl_exportAs_eq {α : Type} (name : α → String) (value : Plan → α → String)
    (names : List α) (plan : Plan) :
    ∃ exports, names.foldl (fun plan one => plan.exportAs (name one) (value plan one)) plan =
      { plan with exports } := by
  induction names generalizing plan with
  | nil => exact ⟨_, rfl⟩
  | cons one more ih => exact ih (plan.exportAs (name one) (value plan one))

theorem exportAs_foldl {α : Type} (name : α → String) (value : Plan → α → String)
    (names : List α) (plan : Plan) :
    let after := names.foldl (fun plan one => plan.exportAs (name one) (value plan one)) plan
    after.changes = plan.changes ∧ after.specifiers = plan.specifiers ∧
      after.exports.map (·.1) = plan.exports.map (·.1) ++ names.map name := by
  obtain ⟨_, hsame⟩ := foldl_exportAs_eq name value names plan
  refine ⟨by rw [hsame], by rw [hsame], ?_⟩
  clear hsame
  induction names generalizing plan with
  | nil => exact (List.append_nil _).symm
  | cons one more ih =>
    refine (ih (plan.exportAs (name one) (value plan one))).trans ?_
    rw [List.map_cons, List.append_cons]
    exact congrArg (· ++ _) List.map_append

theorem exportNames_lowers (analysis : Analysis) (plan : Plan) (span : Span)
    (specifiers : List ExportSpecifier) :
    Lowers analysis (.exportNames span specifiers none) plan
      (exportNames analysis plan span specifiers) := by
  obtain ⟨hchanges, hspecifiers, hexports⟩ := exportAs_foldl
    (fun specifier => specifier.exported.name)
    (fun plan specifier => (plan.value? (analysis.meaningOf
      ⟨specifier.source.name, specifier.source.span⟩)).getD specifier.source.name) specifiers plan
  refine .ofQuiet rfl (congrArg (· ++ _) hchanges) rfl ?_ (List.pairwise_singleton _ _) hspecifiers
    hexports (List.append_nil _) ?_ rfl
  · intro one hone
    obtain rfl := List.mem_singleton.1 hone
    exact .inl ⟨[], rfl⟩
  · rintro _ _ ⟨⟩
    rfl

theorem exportDeclaration_lowers (analysis : Analysis) (plan : Plan) (span : Span)
    (declaration : Node) :
    Lowers analysis (.exportDeclaration span declaration) plan
      (exportDeclaration analysis plan span declaration) := by
  obtain ⟨hchanges, hspecifiers, hexports⟩ := exportAs_foldl (fun name => name) (fun _ name => name)
    (declaredIn analysis declaration.span) (plan.change ⟨span.start, declaration.start⟩ .erased)
  refine .ofQuiet rfl hchanges rfl ?_ (List.pairwise_singleton _ _) hspecifiers hexports ?_ nofun
    rfl
  · intro one hone
    obtain rfl := List.mem_singleton.1 hone
    exact .inl ⟨[], rfl⟩
  · rw [List.map_id']
    exact List.append_nil _

section

variable (analysis : Analysis) (source : List Char) (plan : Plan) (span : Span) (value : Node)

theorem exportNamed_lowers (name : String) :
    Lowers analysis (.exportDefault span value) plan (exportNamed plan span value name) := by
  refine .ofQuiet rfl rfl rfl ?_ (List.pairwise_singleton _ _) rfl List.map_append rfl nofun rfl
  intro one hone
  obtain rfl := List.mem_singleton.1 hone
  exact .inl ⟨_, rfl⟩

/-- A function without a name is also cut at its parameters. -/
theorem exportFunction_lowers {paramsSpan : Span}
    (hparams : TopLevel.paramsStart? value = some paramsSpan.start) :
    Lowers analysis (.exportDefault span value) plan
      (exportFunction source plan span value paramsSpan) := by
  refine .ofQuiet rfl (List.append_assoc _ _ _) rfl ?_ (List.pairwise_pair.2 (.inl rfl)) rfl
    List.map_append rfl nofun rfl
  intro one hone
  simp only [List.cons_append, List.nil_append, List.mem_cons, List.not_mem_nil, or_false] at hone
  rcases hone with rfl | rfl
  · refine .inr ⟨rfl, ?_⟩
    simp [TopLevel.cuts, hparams]
  · exact .inl ⟨_, rfl⟩

theorem exportValue_lowers :
    Lowers analysis (.exportDefault span value) plan (exportValue source plan span value) := by
  unfold exportValue
  split
  · refine .ofQuiet rfl rfl rfl ?_ (List.pairwise_singleton _ _) rfl (List.append_nil _).symm rfl
      nofun rfl
    intro one hone
    obtain rfl := List.mem_singleton.1 hone
    exact .inl ⟨_, rfl⟩
  · refine .ofQuiet rfl (List.append_assoc _ _ _) rfl ?_ (List.pairwise_pair.2 (.inr rfl)) rfl
      (List.append_nil _).symm rfl nofun rfl
    intro one hone
    simp only [List.cons_append, List.nil_append, List.mem_cons, List.not_mem_nil, or_false] at hone
    rcases hone with rfl | rfl
    · exact .inl ⟨_, rfl⟩
    · exact .inr ⟨rfl, .head _⟩

theorem exportDefault_lowers :
    Lowers analysis (.exportDefault span value) plan (exportDefault source plan span value) := by
  unfold exportDefault
  split
  · exact exportNamed_lowers _ plan span _ _
  · exact exportFunction_lowers _ source plan span _ rfl
  · exact exportNamed_lowers _ plan span _ _
  · exact exportValue_lowers _ source plan span value

end

/-! ### All statements -/

/-- What lowering statements one after another adds to a plan. -/
inductive LowersAll (analysis : Analysis) : List TopLevel → Plan → Plan → Prop
  | nil (plan : Plan) : LowersAll analysis [] plan plan
  | cons {statement : TopLevel} {more : List TopLevel} {before next after : Plan}
    (hfirst : Lowers analysis statement before next) (hmore : LowersAll analysis more next after) :
    LowersAll analysis (statement :: more) before after

theorem importsOf_lowers (analysis : Analysis) (plan : Plan) (body : List TopLevel) :
    LowersAll analysis (body.filter TopLevel.isImport) plan (importsOf analysis plan body) := by
  induction body generalizing plan with
  | nil => exact .nil plan
  | cons statement more ih =>
    cases statement with
    | importFrom span specifiers source =>
      exact .cons (importFrom_lowers analysis plan span specifiers source) (ih _)
    | _ => exact ih plan

theorem exportsOf_lowers (subject : Subject) (but : List String) (plan : Plan)
    (body : List TopLevel) :
    LowersAll subject.analysis (body.filter fun statement => !statement.isImport) plan
      (exportsOf subject but plan body) := by
  induction body generalizing plan with
  | nil => exact .nil plan
  | cons statement more ih =>
    cases statement with
    | importFrom => exact ih plan
    | statement =>
      exact .cons (.ofQuiet rfl (List.append_nil _).symm rfl nofun .nil rfl
        (List.append_nil _).symm rfl nofun rfl) (ih plan)
    | exportDeclaration span declaration =>
      exact .cons (exportDeclaration_lowers _ plan span declaration) (ih _)
    | exportNames span specifiers source =>
      cases source with
      | none => exact .cons (exportNames_lowers _ plan span specifiers) (ih _)
      | some source => exact .cons (reExport_lowers _ plan span specifiers source) (ih _)
    | exportDefault span value =>
      exact .cons (exportDefault_lowers _ _ plan span value) (ih _)
    | exportAll span exported source =>
      exact .cons (reExportAll_lowers _ plan span exported but source) (ih _)

namespace LowersAll

variable {analysis : Analysis} {statements more : List TopLevel} {before next after : Plan}

theorem append (h : LowersAll analysis statements before next)
    (hmore : LowersAll analysis more next after) :
    LowersAll analysis (statements ++ more) before after := by
  induction h with
  | nil => exact hmore
  | cons hfirst _ ih => exact .cons hfirst (ih hmore)

/-- Each statement adds its changes. -/
theorem changes (h : LowersAll analysis statements before after) :
    ∃ parts, after.changes = before.changes ++ parts.flatten ∧
      List.Forall₂ Adds statements parts := by
  induction h with
  | nil => exact ⟨[], (List.append_nil _).symm, .nil⟩
  | cons hfirst _ ih =>
    obtain ⟨added, hadded, hadds⟩ := hfirst.changes
    obtain ⟨parts, hparts, hmore⟩ := ih
    exact ⟨added :: parts, by rw [hparts, hadded, List.append_assoc]; rfl, .cons hadds hmore⟩

/-- The names under which the statements export are defined. -/
theorem promises (h : LowersAll analysis statements before after) :
    (promised after).Perm (promised before ++ statements.flatMap (ownNames analysis)) := by
  induction h with
  | nil => exact List.append_nil _ ▸ .refl _
  | cons hfirst _ ih =>
    rw [List.flatMap_cons, ← List.append_assoc]
    exact ih.trans (hfirst.promises.append_right _)

/-- Each module that the statements ask for is asked for once. -/
theorem specifiers (h : LowersAll analysis statements before after) {asked : List String}
    (hbefore : before.specifiers = asked.eraseDups) :
    after.specifiers =
      (asked ++ (statements.filterMap TopLevel.asks).map (·.2)).eraseDups := by
  induction h generalizing asked with
  | nil => rw [List.filterMap_nil, List.map_nil, List.append_nil, hbefore]
  | @cons statement more before next after hfirst _ ih =>
    have hnext := hfirst.specifiers
    cases hasks : statement.asks with
    | none =>
      rw [hasks] at hnext
      rw [List.filterMap_cons_none hasks]
      exact ih (hnext.trans hbefore)
    | some ask =>
      -- Whether the module was asked for before or not, it is there once, at its first place.
      rw [hasks] at hnext
      rw [List.filterMap_cons_some hasks, List.map_cons, List.append_cons]
      refine ih (hnext.trans ?_)
      rw [Option.elim_some, specifiers_require, hbefore, eraseDups_concat]
      simp only [List.mem_eraseDups]

end LowersAll

/-! ### The whole -/

/-- The statements of a module in the order in which they are lowered: the imports come first. -/
def lowerOrder (program : Program) : List TopLevel :=
  program.body.filter TopLevel.isImport ++ program.body.filter fun statement => !statement.isImport

theorem lowerOrder_perm (program : Program) : (lowerOrder program).Perm program.body :=
  List.filter_append_perm _ _

/-- The plan before the statements of a module are lowered. -/
def opening (subject : Subject) : Plan :=
  match subject.program.hashbang with
  | some span => (start (namesIn subject.occurrences)).change span .erased
  | none => start (namesIn subject.occurrences)

/-- The plan when the statements of a module are lowered. -/
def written (subject : Subject) : Plan :=
  exportsOf subject (leftOut subject.analysis subject.program.body)
    (importsOf subject.analysis (opening subject) subject.program.body) subject.program.body

/-- Where the prologue stands: behind the directives. -/
def prologueStart (program : Program) : Nat :=
  (program.directives.getLast?.map (·.span.stop)).getD 0

/-- The change that defines exports before the statements of a module, if there are some. -/
def prologueOf (program : Program) (exports : List (String × String)) : List (Span × Change) :=
  if exports.isEmpty then []
  else [(⟨prologueStart program, prologueStart program⟩, .prologue exports)]

theorem addPrologue_eq (program : Program) (plan : Plan) :
    addPrologue program plan =
      { plan with changes := plan.changes ++ prologueOf program plan.exports } := by
  unfold addPrologue prologueOf
  split
  · rw [List.append_nil]
  · rfl

theorem make_eq (subject : Subject) :
    make subject = { written subject with
      changes := (written subject).changes ++
        usesOf subject.source (written subject) subject.analysis.found.reverse ++
        prologueOf subject.program (written subject).exports } :=
  addPrologue_eq _ _

theorem written_lowers (subject : Subject) :
    LowersAll subject.analysis (lowerOrder subject.program) (opening subject) (written subject) :=
  (importsOf_lowers _ _ _).append (exportsOf_lowers _ _ _ _)

/-- Before the statements of a module are lowered, nothing is changed but the first line. -/
theorem opening_eq (subject : Subject) :
    opening subject = { start (namesIn subject.occurrences) with
      changes := subject.program.hashbang.toList.map fun span => (span, .erased) } := by
  unfold opening
  split
  next span hspan =>
    rw [hspan]
    rfl
  next hnone =>
    rw [hnone]
    rfl

/-- All changes to a module: to its first line, to its imports and exports, to the uses of what is
    imported, and before the statements. -/
theorem make_changes (subject : Subject) :
    ∃ parts, List.Forall₂ Adds (lowerOrder subject.program) parts ∧
      (make subject).changes = (opening subject).changes ++ parts.flatten ++
        usesOf subject.source (written subject) subject.analysis.found.reverse ++
        prologueOf subject.program (written subject).exports := by
  obtain ⟨parts, hparts, hadds⟩ := (written_lowers subject).changes
  exact ⟨parts, hadds, by rw [make_eq, hparts]⟩

/-- Each use of what is imported is changed where it stands. -/
theorem usesOf_changes {source : List Char} {plan : Plan} {found : List (Use × Option Ident)} :
    ∀ one ∈ usesOf source plan found, one.2.isUse = true ∧
      ∃ use meaning, (use, meaning) ∈ found ∧ one.1 = use.id.span := by
  intro one hone
  obtain ⟨⟨use, meaning⟩, hfound, hone⟩ := List.mem_filterMap.1 hone
  obtain ⟨value, -, rfl⟩ := Option.map_eq_some_iff.1 hone
  refine ⟨?_, use, meaning, hfound, rfl⟩
  unfold useChange
  split <;> rfl

/-- What the changes to a module ask for is what its statements ask for. -/
theorem make_requests (subject : Subject) :
    ((make subject).changes.flatMap requests).Perm subject.program.asks := by
  obtain ⟨parts, hadds, hchanges⟩ := make_changes subject
  have hopening : (opening subject).changes.flatMap requests = [] := by
    rw [opening_eq, List.flatMap_map]
    exact List.flatMap_eq_nil_iff.2 fun _ _ => rfl
  have hparts := requests_flatten hadds
  have huses : (usesOf subject.source (written subject) subject.analysis.found.reverse).flatMap
      requests = [] :=
    List.flatMap_eq_nil_iff.2 fun one hone => by
      rw [requests, Change.requires_of_isUse (usesOf_changes one hone).1, List.map_nil]
  have hprologue : (prologueOf subject.program (written subject).exports).flatMap requests = [] := by
    unfold prologueOf
    split <;> rfl
  rw [hchanges, List.flatMap_append, List.flatMap_append, List.flatMap_append, hopening, hparts,
    huses, hprologue, List.append_nil, List.append_nil, List.nil_append]
  exact (lowerOrder_perm _).filterMap _

/-- The specifiers stand in the order in which the statements are lowered, each at its first
    place. -/
theorem make_specifiers_eq (subject : Subject) :
    (make subject).specifiers =
      (((lowerOrder subject.program).filterMap TopLevel.asks).map (·.2)).eraseDups := by
  rw [make_eq]
  exact (written_lowers subject).specifiers
    (show _ = List.eraseDups [] by rw [opening_eq]; rfl)

/-- A module is asked for once, however many statements ask for it. -/
theorem make_specifiers (subject : Subject) :
    (make subject).specifiers.Nodup ∧
      ∀ specifier, specifier ∈ (make subject).specifiers ↔
        specifier ∈ subject.program.asks.map (·.2) := by
  rw [make_specifiers_eq]
  refine ⟨nodup_eraseDups _, fun specifier => ?_⟩
  rw [List.mem_eraseDups]
  exact (((lowerOrder_perm subject.program).filterMap TopLevel.asks).map (·.2)).mem_iff

/-- What the changes to a module define is what its statements export by name, each as often as
    they export it. -/
theorem make_defines (subject : Subject) :
    ((make subject).changes.flatMap (·.2.defines)).Perm
      (subject.program.body.flatMap (ownNames subject.analysis)) := by
  have hpromises := (written_lowers subject).promises
  have hopening : promised (opening subject) = [] := by
    rw [opening_eq, promised, List.flatMap_map]
    exact List.flatMap_eq_nil_iff.2 fun _ _ => rfl
  have huses : (usesOf subject.source (written subject) subject.analysis.found.reverse).flatMap
      (·.2.defines) = [] :=
    List.flatMap_eq_nil_iff.2 fun one hone => Change.defines_of_isUse (usesOf_changes one hone).1
  have hprologue : (prologueOf subject.program (written subject).exports).flatMap (·.2.defines) =
      (written subject).exports.map (·.1) := by
    unfold prologueOf
    split
    next hempty => rw [List.isEmpty_iff.1 hempty]; rfl
    next => exact List.append_nil _
  -- The exports that were noted are in the prologue, and the others where the statements were.
  rw [hopening, List.nil_append] at hpromises
  rw [make_eq, List.flatMap_append, List.flatMap_append, huses, hprologue, List.append_nil]
  refine List.perm_append_comm.trans (hpromises.trans ?_)
  exact (lowerOrder_perm _).flatMap_right _

end Plan

end Lowering

end Bundler

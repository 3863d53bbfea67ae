import Bundler.Proofs.Lowering.Called

/-!
# The changes that are made

The changes to a module are collected as the lowering comes to its statements, and tried in the order
of the text. If nothing that the module exports has decorators, each of them is made where it stands,
but for those to uses in a list of exported names, which is taken away as a whole. So the lowered
module is the module with all other changes in the place of what they change, byte by byte.

* `InList`: a change to a use in a list of exported names that is taken away;
* `Plan.make_apart_lists`: two changes to a module are apart, but for those;
* `Plan.make_bounds`: each change stands between characters of the module;
* `Plan.effective_make`: the changes that take effect;
* `edited_of_lower`: a lowered module is the module with these changes.
-/

namespace Bundler

open Script Lowering

namespace Script

/-- Nothing that a module exports has decorators. -/
def Program.Undecorated (program : Program) : Prop :=
  ∀ statement ∈ program.body, ∀ value ∈ statement.exported?, value.decorators = []

instance (program : Program) : Decidable program.Undecorated :=
  inferInstanceAs (Decidable (∀ statement ∈ program.body, ∀ value ∈ statement.exported?,
    value.decorators = []))

/-- The place of a list of names that a module exports of its own. -/
def TopLevel.list? : TopLevel → Option Span
  | .exportNames span _ none => some span
  | _ => none

/-- The places of the lists of names that a module exports of its own. -/
def Program.lists (program : Program) : List Span :=
  program.body.filterMap TopLevel.list?

/-- No name stands between the start of an export and what is exported. -/
theorem TopLevel.IsCut.not_within {statement : TopLevel} {lo hi : Nat} {span : Span}
    (hcut : statement.IsCut span) (h : statement.Stands lo hi) {value : Node}
    (hexported : statement.exported? = some value) (hplain : value.decorators = []) {id : Ident}
    (hid : id ∈ statement.idents) :
    ¬(span.start < id.span.start ∧ id.span.stop ≤ span.stop) := by
  have hstart := h.plain value hexported hplain id hid
  have hfilled := h.chain.filled id hid
  rcases hcut with ⟨more, hcuts⟩ | ⟨heq, -⟩
  · have hstop : span.stop = value.start := by
      unfold exported? at hexported
      split at hexported
      · cases hexported
        exact (List.cons.inj (List.cons.inj hcuts).2).1.symm
      · cases hexported
        exact (List.cons.inj (List.cons.inj hcuts).2).1.symm
      · cases hexported
    omega
  · omega

end Script

namespace Lowering

/-- A change to a use in a list of exported names, and the one that takes the list away. -/
structure InList (program : Program) (use list : Span × Change) : Prop where
  /-- The one is made to a use of what is imported. -/
  isUse : use.2.isUse = true
  /-- The other one takes something away. -/
  erased : list.2 = .erased
  /-- What it takes away is a list of names that are exported. -/
  mem : list.1 ∈ program.lists
  /-- The use starts within the list. -/
  start_lt : list.1.start < use.1.start
  /-- It ends within the list. -/
  stop_lt : use.1.stop < list.1.stop

/-- Whether a change is made to a use in a list of exported names. -/
def isLost (program : Program) (one : Span × Change) : Bool :=
  one.2.isUse && program.lists.any fun span => span.start < one.1.start && one.1.stop < span.stop

theorem isLost_iff {program : Program} {one : Span × Change} : isLost program one = true ↔
    ∃ span ∈ program.lists, InList program one (span, .erased) := by
  simp only [isLost, Bool.and_eq_true, List.any_eq_true, decide_eq_true_eq]
  constructor
  · rintro ⟨huse, span, hspan, hstart, hstop⟩
    exact ⟨span, hspan, huse, rfl, hspan, hstart, hstop⟩
  · rintro ⟨span, hspan, h⟩
    exact ⟨h.isUse, span, hspan, h.start_lt, h.stop_lt⟩

namespace InList

variable {program : Program} {use list : Span × Change}

theorem isLost (h : InList program use list) : Lowering.isLost program use = true := by
  obtain ⟨span, change⟩ := list
  obtain rfl : change = .erased := h.erased
  exact isLost_iff.2 ⟨span, h.mem, h⟩

/-- What takes a list away is not in a list. -/
theorem not_isLost (h : InList program use list) : Lowering.isLost program list = false := by
  rw [Lowering.isLost, h.erased]
  rfl

end InList

namespace Plan

variable {subject : Subject}

/-- A use and a change to a statement are apart, or the statement is a list of exported names and
    the use stands in it. -/
theorem apart_or_inList (hstands : subject.program.Stands) (hplain : subject.program.Undecorated)
    {statement : TopLevel} (hmem : statement ∈ subject.program.body)
    {added : List (Span × Change)} (hadds : Adds statement added) {one use : Span × Change}
    (hone : one ∈ added)
    (huse : use.2.isUse = true ∧ ∃ statement ∈ subject.program.body, statement.isImport = false ∧
      ∃ id ∈ statement.idents, use.1 = id.span) :
    one.1.Apart use.1 ∨ InList subject.program use one := by
  obtain ⟨hisUse, around, haround, himport, id, hid, hspan⟩ := huse
  obtain ⟨-, lo, hi, -, hbody, -, -⟩ := hstands.body
  have hcut := hadds.cuts one hone
  -- The use stands in the statement that is changed, or in one before or behind it.
  rcases hbody.eq_or_precedes hmem haround with rfl | hprecedes
  · obtain ⟨_, _, hstands⟩ := hbody.stands hmem
    rcases hcut.apart_ident hstands hid with hapart | hwithin
    · exact .inl (hspan ▸ hapart.symm)
    cases statement with
    | statement => cases hcut.mem.1
    | importFrom => cases himport
    | exportDeclaration =>
      exact absurd hwithin (hcut.not_within hstands rfl (hplain _ hmem _ rfl) hid)
    | exportDefault => exact absurd hwithin (hcut.not_within hstands rfl (hplain _ hmem _ rfl) hid)
    | exportAll => cases hid
    | exportNames span specifiers source =>
      cases source with
      | some => cases hid
      | none =>
        rw [hadds.list span specifiers rfl] at hone
        obtain rfl := List.mem_singleton.1 hone
        exact .inr {
          isUse := hisUse
          erased := rfl
          mem := List.mem_filterMap.2 ⟨_, hmem, rfl⟩
          start_lt := hspan ▸ hwithin.1
          stop_lt := hspan ▸ hstands.closes span specifiers rfl id hid }
  · exact .inl (TopLevel.Precedes.apart hprecedes hcut.spots (hspan ▸ TopLevel.spots_of_ident hid))

/-- The prologue stands between two characters. -/
theorem mark_prologueStart {text : List Char} (hmarks : subject.program.Marks text) :
    Text.Mark text (prologueStart subject.program) := by
  unfold prologueStart
  cases hlast : subject.program.directives.getLast? with
  | none => exact Text.mark_zero _
  | some directive => exact hmarks.directives directive (List.mem_of_getLast? hlast)

/-- A change to a use in a list of exported names comes with the one that takes the list away. -/
theorem exists_inList {one : Span × Change} (h : isLost subject.program one = true) :
    ∃ list ∈ (make subject).changes, InList subject.program one list := by
  obtain ⟨parts, hadds, hchanges⟩ := make_changes subject
  obtain ⟨span, hspan, hlist⟩ := isLost_iff.1 h
  refine ⟨_, ?_, hlist⟩
  obtain ⟨statement, hmem, hstatement⟩ := List.mem_filterMap.1 hspan
  unfold TopLevel.list? at hstatement
  split at hstatement
  · cases hstatement
    rw [hchanges]
    have herased := erased_mem_flatten hadds ((lowerOrder_perm _).mem_iff.2 hmem)
    exact List.mem_append_left _ (List.mem_append_left _ (List.mem_append_right _ herased))
  · cases hstatement

section

variable (hstands : subject.program.Stands)
  (hanalysis : subject.analysis = Analysis.ofOccurrences (subject.program.occurrences .module))

include hstands hanalysis

/-- Two changes to a module have nothing in common, or one of them is made to a use in a list of
    exported names that the other one takes away. -/
theorem make_apart_lists (hplain : subject.program.Undecorated) :
    (make subject).changes.Pairwise fun one other => one.1.Apart other.1 ∨
      InList subject.program one other ∨ InList subject.program other one :=
  make_apart_of hstands hanalysis fun _ hmem _ hadds _ hone _ huse =>
    apart_or_inList hstands hplain hmem hadds hone (ident_of_use hanalysis huse)

/-- No change to a module ends before it starts, and each starts and ends between characters. -/
theorem make_bounds {text : List Char} (hmarks : subject.program.Marks text) :
    ∀ one ∈ (make subject).changes, one.1.start ≤ one.1.stop ∧
      Text.Mark text one.1.start ∧ Text.Mark text one.1.stop := by
  obtain ⟨parts, hadds, hchanges⟩ := make_changes subject
  obtain ⟨first, lo, hi, -, hbody, hhashbang, -⟩ := hstands.body
  intro one hone
  rw [hchanges, List.mem_append, List.mem_append, List.mem_append] at hone
  rcases hone with ((hone | hone) | hone) | hone
  · rw [opening_eq] at hone
    obtain ⟨span, hspan, rfl⟩ := List.mem_map.1 hone
    have hstart := (hhashbang span (Option.mem_toList.1 hspan)).1
    dsimp only
    rw [hstart]
    exact ⟨Nat.zero_le _, Text.mark_zero _, hmarks.hashbang span (Option.mem_toList.1 hspan)⟩
  · obtain ⟨statement, hmem, hcut⟩ := isCut_of_mem_flatten hadds hone
    have hmem := (lowerOrder_perm _).subset hmem
    obtain ⟨_, _, hstand⟩ := hbody.stands hmem
    exact ⟨hcut.start_le hstand, hmarks.cuts _ hmem _ hcut.mem.1, hmarks.cuts _ hmem _ hcut.mem.2⟩
  · obtain ⟨-, statement, hmem, -, id, hid, hspan⟩ := ident_of_use hanalysis hone
    exact ⟨Nat.le_of_lt (start_lt_of_isUse hstands hanalysis hone),
      hspan ▸ hmarks.idents _ hmem id hid⟩
  · obtain ⟨hstart, hstop⟩ := prologueOf_span one hone
    rw [hstart, hstop]
    have hmark := mark_prologueStart hmarks
    exact ⟨Nat.le_refl _, hmark, hmark⟩

end

/-- The changes that are made, in the order of the text: all but those to uses in lists of exported
    names. -/
def made (subject : Subject) : List (Span × Change) :=
  (make subject).inOrder.filter fun one => !isLost subject.program one

/-- Of changes in order those take effect that are not lost, if all that come before such a one end
    before it, and each that is lost starts in what another one has replaced. -/
theorem effectiveFrom_filter {offset : Nat} {changes : List (Span × Change)}
    (lost : Span × Change → Bool)
    (hsorted : changes.Pairwise fun one other => one.1.start ≤ other.1.start)
    (hapart : changes.Pairwise fun one other => lost other = false → one.1.stop ≤ other.1.start)
    (hoffset : ∀ one ∈ changes, lost one = false → offset ≤ one.1.start)
    (hlost : ∀ one ∈ changes, lost one = true → one.1.start < offset ∨
      ∃ other ∈ changes, lost other = false ∧ other.1.start < one.1.start ∧
        one.1.start < other.1.stop) :
    Edit.effectiveFrom offset (changes.map edit) =
      (changes.filter fun one => !lost one).map edit := by
  induction changes generalizing offset with
  | nil => rfl
  | cons first more ih =>
    obtain ⟨hfirst, hsorted⟩ := List.pairwise_cons.1 hsorted
    obtain ⟨hends, hapart⟩ := List.pairwise_cons.1 hapart
    rw [List.map_cons, Edit.effectiveFrom]
    change (if first.1.start < offset then _ else _) = _
    cases hkind : lost first with
    | true =>
      rw [List.filter_cons_of_neg (by simp [hkind])]
      -- What comes later does not start before it, so it is an earlier change that has replaced it.
      have hlt : first.1.start < offset := by
        refine (hlost first (.head _) hkind).resolve_right ?_
        rintro ⟨other, hother, -, hstart, -⟩
        rcases List.mem_cons.1 hother with rfl | hother
        · omega
        · have := hfirst other hother
          omega
      rw [if_pos hlt]
      refine ih hsorted hapart (fun one hone => hoffset one (.tail _ hone)) fun one hone hone' => ?_
      refine (hlost one (.tail _ hone) hone').imp_right ?_
      rintro ⟨other, hother, hkept, hwithin⟩
      rcases List.mem_cons.1 hother with rfl | hother
      · rw [hkind] at hkept
        cases hkept
      · exact ⟨other, hother, hkept, hwithin⟩
    | false =>
      have hle := hoffset first (.head _) hkind
      rw [List.filter_cons_of_pos (by simp [hkind]), List.map_cons, if_neg (Nat.not_lt.2 hle)]
      refine congrArg (edit first :: ·) (ih hsorted hapart hends fun one hone hone' => ?_)
      rcases hlost one (.tail _ hone) hone' with hlt | ⟨other, hother, hkept, hstart, hstop⟩
      · have := hfirst one hone
        omega
      · rcases List.mem_cons.1 hother with rfl | hother
        · exact .inl hstop
        · exact .inr ⟨other, hother, hkept, hstart, hstop⟩

section

variable (hstands : subject.program.Stands)
  (hanalysis : subject.analysis = Analysis.ofOccurrences (subject.program.occurrences .module))
  {text : List Char} (hmarks : subject.program.Marks text) (hplain : subject.program.Undecorated)

include hstands hanalysis hmarks hplain

/-- What is tried before a change ends before it, unless it is one to a use in a list of exported
    names. -/
theorem inOrder_apart_lists : (make subject).inOrder.Pairwise fun one other =>
    isLost subject.program other = false → one.1.stop ≤ other.1.start := by
  have hperm := (make subject).inOrder_perm
  have hapart := (hperm.pairwise_iff fun h => ?_).2 (make_apart_lists hstands hanalysis hplain)
  · refine ((make subject).inOrder_sorted.and hapart).imp_of_mem ?_
    rintro one other hone hother ⟨hsorted, hapart⟩ hkept
    have hle := (make_bounds hstands hanalysis hmarks other (hperm.subset hother)).1
    rcases hapart with (hapart | hapart) | hlist | hlist
    · exact hapart
    · omega
    · have := hlist.start_lt
      omega
    · rw [hlist.isLost] at hkept
      cases hkept
  · rcases h with h | h | h
    · exact .inl h.symm
    · exact .inr (.inr h)
    · exact .inr (.inl h)

/-- The changes that take effect are all but those to uses in lists of exported names. -/
theorem effective_make : Edit.effective (make subject).edits = (made subject).map edit := by
  unfold Edit.effective
  rw [← map_inOrder]
  refine effectiveFrom_filter (isLost subject.program) ?_
    (inOrder_apart_lists hstands hanalysis hmarks hplain) (fun _ _ _ => Nat.zero_le _) ?_
  · refine (make subject).inOrder_sorted.imp fun h => ?_
    omega
  · intro one hone hlost
    obtain ⟨list, hmem, hlist⟩ := exists_inList hlost
    have hfilled :=
      (make_bounds hstands hanalysis hmarks one ((make subject).inOrder_perm.subset hone)).1
    have hstop := hlist.stop_lt
    exact .inr ⟨list, (make subject).inOrder_perm.mem_iff.2 hmem, hlist.not_isLost, hlist.start_lt,
      by omega⟩

end

end Plan

end Lowering

/-- A module and the lowered module, with the changes that are collected and those that are made. -/
structure Edited (source code : String) (program : Program) (changes made : List (Span × Change)) :
    Prop where
  /-- Two changes have nothing in common, or one of them is made to a use in a list of exported names
      that the other one takes away. -/
  apart : changes.Pairwise fun one other =>
    one.1.Apart other.1 ∨ InList program one other ∨ InList program other one
  /-- Each change stands in the module and starts and ends between characters. -/
  bounds : ∀ one ∈ changes, one.1.start ≤ one.1.stop ∧
    one.1.stop ≤ Text.byteLength source.toList ∧
    Text.Mark source.toList one.1.start ∧ Text.Mark source.toList one.1.stop
  /-- All changes are made but for those to uses in lists of exported names. -/
  complete : made.Perm (changes.filter fun one => !isLost program one)
  /-- These are the ones that take effect. -/
  effective : Edit.effective (changes.map Plan.edit) = made.map Plan.edit
  /-- They are made one after another, and of two at one place what is added comes first. -/
  ordered : made.Pairwise fun one other =>
    one.1.stop ≤ other.1.start ∧ (one.1.start = other.1.start → one.1.start = one.1.stop)
  /-- The lowered module is the module with their texts in the place of what they change, and all
      else is kept. -/
  makes : Edit.Makes 0 source.toList (made.map Plan.edit) code.toList

/-- A lowered module is the module with all changes made but those to uses in lists of exported
    names, if nothing that it exports has decorators. -/
theorem edited_of_lower {id source : String} {lowered : Lowered} {program : Program}
    (h : lower id source = .ok lowered) (hread : Program.read .module source = .ok program)
    (hplain : program.Undecorated) :
    ∃ subject, examine id source = .ok subject ∧
      Edited source lowered.code program (Plan.make subject).changes (Plan.made subject) := by
  obtain ⟨subject, hsubject, hcode, -⟩ := lower_ok h
  obtain ⟨hsource, hread', hanalysis⟩ := examine_ok hsubject
  obtain rfl := Except.ok.inj (hread.symm.trans hread')
  have hstands := Program.read_stands hread
  have hmarks := Program.read_marks hread
  have hbounds := Plan.make_bounds hstands hanalysis hmarks
  have hperm := (Plan.make subject).inOrder_perm
  refine ⟨subject, hsubject, ?_⟩
  exact {
    apart := Plan.make_apart_lists hstands hanalysis hplain
    bounds := fun one hone =>
      have hone := hbounds one hone
      ⟨hone.1, hone.2.2.le, hone.2⟩
    complete := hperm.filter _
    effective := Plan.effective_make hstands hanalysis hmarks hplain
    ordered := by
      have hapart := Plan.inOrder_apart_lists hstands hanalysis hmarks hplain
      refine List.pairwise_filter.2 (hapart.imp_of_mem ?_)
      intro one other hone _ hapart _ hkept
      have hstop := hapart (by simpa using hkept)
      have hfilled := (hbounds one (hperm.subset hone)).1
      exact ⟨hstop, fun hsame => by omega⟩
    makes := by
      rw [hcode, String.toList_ofList, ← Plan.effective_make hstands hanalysis hmarks hplain, hsource]
      refine Edit.apply_makes ?_ ?_
      · intro edit hedit
        obtain ⟨one, hone, rfl⟩ := List.mem_map.1 hedit
        exact (hbounds one hone).2
      · intro edit hedit
        obtain ⟨one, hone, rfl⟩ := List.mem_map.1 hedit
        exact (hbounds one hone).1 }

/-- A module that exports a name that it imports and uses. -/
def relayed : String :=
  "#!/usr/bin/env node\n'use strict'\nimport \x7b x as y \x7d from './x.js';\nexport \x7b y \x7d;\n" ++
    "export default y(\"\u00e9\")\n"

theorem edited_of_lower_relayed :
    ∃ lowered program, lower "m.js" relayed = .ok lowered ∧
      Program.read .module relayed = .ok program ∧ program.Undecorated ∧
      ∃ subject, examine "m.js" relayed = .ok subject ∧
        Edited relayed lowered.code program (Plan.make subject).changes (Plan.made subject) := by
  obtain ⟨lowered, hlower⟩ :=
    exists_lower_of_isOk (by decide +kernel : (lower "m.js" relayed).isOk = true)
  have hplain : (Program.read .module relayed).toOption.all
      (fun program => decide program.Undecorated) = true := by decide +kernel
  obtain ⟨subject, -, -, hmade, -⟩ := made_of_lower hlower
  rw [hmade.read] at hplain
  have hplain := of_decide_eq_true hplain
  exact ⟨lowered, subject.program, hlower, hmade.read, hplain,
    edited_of_lower hlower hmade.read hplain⟩

end Bundler

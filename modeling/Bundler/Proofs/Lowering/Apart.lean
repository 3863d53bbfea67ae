import Bundler.Proofs.Lowering.Accepted
import Bundler.Proofs.Lowering.Changes

/-!
# No change is in the way of another one

Statements stand one after another, and so do names. So two changes to a module have nothing in
common, unless one is made to a use of an imported name in what an export loses. Such a use may be
left out; all other changes are among the pieces of the lowered module.

* `Span.Apart`: stretches that have nothing in common;
* `Plan.Within`: a change to a use in what another change takes away;
* `Plan.make_apart`: two changes to a module are apart, or one is within the other one;
* `Plan.flatMap_made`: all changes but those to uses are made;
* `Made`, `made_of_lower`: a lowered module is the module with these changes.
-/

namespace Bundler

namespace Span

/-- Two stretches that have nothing in common. -/
def Apart (one other : Span) : Prop :=
  one.stop ≤ other.start ∨ other.stop ≤ one.start

theorem Apart.symm {one other : Span} (h : one.Apart other) : other.Apart one :=
  Or.symm h

end Span

namespace Script

namespace TopLevel

variable {statement : TopLevel} {lo hi : Nat} {span : Span}

theorem IsCut.start_le (hcut : statement.IsCut span) (h : statement.Stands lo hi) :
    span.start ≤ span.stop := by
  rcases hcut with ⟨more, hcuts⟩ | ⟨heq, -⟩
  · exact Nat.le_of_lt (h.ordered _ _ _ hcuts).1
  · exact Nat.le_of_eq heq

/-- A cut ends behind the offset from which on the statement stands. -/
theorem IsCut.lt_stop (hcut : statement.IsCut span) (h : statement.Stands lo hi) :
    lo < span.stop := by
  rcases hcut with ⟨more, hcuts⟩ | ⟨heq, hmem⟩
  · have hordered := h.ordered _ _ _ hcuts
    have hbounds := h.bounds span.start (hcuts ▸ .head _)
    omega
  -- Behind a word no stretch is empty but behind the word.
  · match hcuts : statement.cuts with
    | [] | [_] =>
      rw [hcuts] at hmem
      cases hmem
    | start :: stop :: more =>
      rw [hcuts] at hmem
      have hordered := h.ordered _ _ _ hcuts
      have hbehind := hordered.2 _ hmem
      have hbounds := h.bounds start (hcuts ▸ .head _)
      omega

/-- Two cuts of a statement, of which one takes nothing away, are apart. -/
theorem IsCut.apart {one other : Span} (hone : statement.IsCut one) (hother : statement.IsCut other)
    (h : statement.Stands lo hi) (hempty : one.start = one.stop ∨ other.start = other.stop) :
    one.Apart other := by
  unfold Span.Apart
  rcases hone with ⟨_, hone⟩ | ⟨heq, hone⟩
  · have hordered := h.ordered _ _ _ hone
    rcases hother with ⟨_, hother⟩ | ⟨heq', hother⟩
    · have := (h.ordered _ _ _ hother).1
      omega
    · rw [hone] at hother
      exact .inl (hordered.2 _ hother)
  · rcases hother with ⟨_, hother⟩ | ⟨heq', hother⟩
    · rw [hother] at hone
      exact .inr ((h.ordered _ _ _ hother).2 _ hone)
    · omega

/-- A name and a cut of a statement are apart, unless the cut takes the name away. -/
theorem IsCut.apart_ident (hcut : statement.IsCut span) (h : statement.Stands lo hi) {id : Ident}
    (hid : id ∈ statement.idents) :
    id.span.Apart span ∨ span.start < id.span.start ∧ id.span.stop ≤ span.stop := by
  have hstart := h.clear _ hcut.mem.1 id hid
  have hstop := h.clear _ hcut.mem.2 id hid
  have hfilled := h.chain.filled id hid
  unfold Span.Apart
  rcases hcut with ⟨more, hcuts⟩ | ⟨heq, -⟩
  · have hopens := h.opens span.start (by rw [hcuts]; rfl) id hid
    omega
  · omega

theorem IsCut.spots (hcut : statement.IsCut span) :
    span.start ∈ statement.spots ∧ span.stop ∈ statement.spots :=
  ⟨List.mem_append_left _ hcut.mem.1, List.mem_append_left _ hcut.mem.2⟩

/-- Stretches in two statements are apart. -/
theorem Precedes.apart {one other : TopLevel} (h : one.Precedes other ∨ other.Precedes one)
    {span next : Span} (hspan : span.start ∈ one.spots ∧ span.stop ∈ one.spots)
    (hnext : next.start ∈ other.spots ∧ next.stop ∈ other.spots) : span.Apart next := by
  rcases h with h | h
  · exact .inl (h _ hspan.2 _ hnext.1)
  · exact .inr (h _ hnext.2 _ hspan.1)

end TopLevel

/-- Of two statements one precedes the other one. -/
theorem StandIn.precedes {lo hi : Nat} {body : List TopLevel} (h : StandIn lo body hi) :
    body.Pairwise fun one other => one.Precedes other ∨ other.Precedes one :=
  h.spots.2.imp .inl

theorem StandIn.eq_or_precedes {lo hi : Nat} {body : List TopLevel} (h : StandIn lo body hi)
    {one other : TopLevel} (hone : one ∈ body) (hother : other ∈ body) :
    one = other ∨ one.Precedes other ∨ other.Precedes one :=
  List.Pairwise.forall_of_forall_of_flip
    (R := fun one other : TopLevel => one = other ∨ one.Precedes other ∨ other.Precedes one)
    (fun _ _ => .inl rfl) (h.precedes.imp .inr) (h.precedes.imp fun h => .inr h.symm) hone hother

end Script

namespace Lowering

open Script

namespace Plan

section

variable {statements : List TopLevel} {parts : List (List (Span × Change))}

/-- Each change that statements add is added by one of them. -/
theorem adds_of_mem_flatten (h : List.Forall₂ Adds statements parts) {one : Span × Change}
    (hone : one ∈ parts.flatten) :
    ∃ statement ∈ statements, ∃ added, Adds statement added ∧ one ∈ added := by
  obtain ⟨added, hadded, hone⟩ := List.mem_flatten.1 hone
  have hparts : List.Forall₂ (flip Adds) parts statements := h.flip
  obtain ⟨statement, hstatement, hadds⟩ := exists_of_forall₂ hparts hadded
  exact ⟨statement, hstatement, added, hadds, hone⟩

/-- Each change that statements add stands where one of them may be cut. -/
theorem isCut_of_mem_flatten (h : List.Forall₂ Adds statements parts) {one : Span × Change}
    (hone : one ∈ parts.flatten) : ∃ statement ∈ statements, statement.IsCut one.1 := by
  obtain ⟨statement, hmem, added, hadds, hone⟩ := adds_of_mem_flatten h hone
  exact ⟨statement, hmem, hadds.cuts one hone⟩

/-- A list of exported names is taken away. -/
theorem erased_mem_flatten (h : List.Forall₂ Adds statements parts) {span : Span}
    {specifiers : List ExportSpecifier} (hmem : .exportNames span specifiers none ∈ statements) :
    (span, .erased) ∈ parts.flatten := by
  induction h with
  | nil => cases hmem
  | cons hfirst _ ih =>
    rw [List.flatten_cons, List.mem_append]
    rcases List.mem_cons.1 hmem with rfl | hmem
    · exact .inl (hfirst.list span specifiers rfl ▸ .head _)
    · exact .inr (ih hmem)

/-- The changes that statements add are apart. -/
theorem flatten_apart (h : List.Forall₂ Adds statements parts)
    (hstands : ∀ statement ∈ statements, ∃ lo hi, statement.Stands lo hi)
    (hprecedes : statements.Pairwise fun one other => one.Precedes other ∨ other.Precedes one) :
    parts.flatten.Pairwise fun one other => one.1.Apart other.1 := by
  induction h with
  | nil => exact .nil
  | @cons statement added more others hfirst hmore ih =>
    obtain ⟨hbefore, hprecedes⟩ := List.pairwise_cons.1 hprecedes
    obtain ⟨lo, hi, hstand⟩ := hstands statement (.head _)
    rw [List.flatten_cons, List.pairwise_append]
    refine ⟨?_, ih (fun other hother => hstands other (.tail _ hother)) hprecedes, ?_⟩
    · exact hfirst.empty.imp_of_mem fun hone hother hempty =>
        (hfirst.cuts _ hone).apart (hfirst.cuts _ hother) hstand hempty
    · intro one hone next hnext
      obtain ⟨other, hother, hcut⟩ := isCut_of_mem_flatten hmore hnext
      exact TopLevel.Precedes.apart (hbefore other hother) (hfirst.cuts one hone).spots hcut.spots

end

/-- A change to a use in what another change takes away. -/
def Within (one other : Span × Change) : Prop :=
  one.2.isUse = true ∧ other.1.start < one.1.start ∧ one.1.stop ≤ other.1.stop

/-- A use of what is imported stands at a name of a statement. -/
theorem ident_of_use {subject : Subject}
    (hanalysis : subject.analysis =
      Analysis.ofOccurrences (subject.program.occurrences .module))
    {plan : Plan} {one : Span × Change}
    (hone : one ∈ usesOf subject.source plan subject.analysis.found.reverse) :
    one.2.isUse = true ∧ ∃ statement ∈ subject.program.body, statement.isImport = false ∧
      ∃ id ∈ statement.idents, one.1 = id.span := by
  obtain ⟨hisUse, use, meaning, hfound, hspan⟩ := usesOf_changes one hone
  rw [List.mem_reverse, hanalysis] at hfound
  obtain ⟨statement, hmem, himport, hid⟩ :=
    subject.program.statement_of_use (Analysis.mem_usesIn_of_found hfound)
  exact ⟨hisUse, statement, hmem, himport, use.id, hid, hspan⟩

/-- Uses of what is imported are apart. -/
theorem usesOf_apart {subject : Subject} (hstands : subject.program.Stands)
    (hanalysis : subject.analysis =
      Analysis.ofOccurrences (subject.program.occurrences .module)) (plan : Plan) :
    (usesOf subject.source plan subject.analysis.found.reverse).Pairwise fun one other =>
      one.1.Apart other.1 := by
  obtain ⟨lo, hi, hchain⟩ := hstands.chain
  obtain ⟨those, hperm, hthose⟩ := Analysis.found_subperm (subject.program.occurrences .module)
  rw [Program.usesIn_occurrences] at hthose
  have hids := hchain.ordered.sublist ((hthose.map (·.id)).trans subject.program.uses_sublist)
  have hfound : (subject.analysis.found.map (·.1.id)).Pairwise fun one other =>
      one.span.Apart other.span := by
    rw [hanalysis]
    have hmap := (hperm.map (·.id)).pairwise_iff (R := fun one other : Ident =>
      one.span.Apart other.span) fun h => h.symm
    rw [List.map_map] at hmap
    exact hmap.1 (hids.imp .inl)
  refine List.pairwise_filterMap.2 (List.pairwise_reverse.2 ((List.pairwise_map.1 hfound).imp ?_))
  rintro ⟨use, meaning⟩ ⟨other, found⟩ hapart one hone next hnext
  obtain ⟨_, -, rfl⟩ := Option.map_eq_some_iff.1 hone
  obtain ⟨_, -, rfl⟩ := Option.map_eq_some_iff.1 hnext
  exact hapart.symm

/-- A use and a change to a statement are apart, or the use is in what the change takes away. -/
theorem apart_or_within {lo hi : Nat} {body : List TopLevel} (hbody : StandIn lo body hi)
    {statement : TopLevel} (hmem : statement ∈ body) {one use : Span × Change}
    (hcut : statement.IsCut one.1)
    (huse : use.2.isUse = true ∧ ∃ statement ∈ body, statement.isImport = false ∧
      ∃ id ∈ statement.idents, use.1 = id.span) :
    one.1.Apart use.1 ∨ Within use one := by
  obtain ⟨hisUse, around, haround, -, id, hid, hspan⟩ := huse
  rcases hbody.eq_or_precedes hmem haround with rfl | hprecedes
  · obtain ⟨_, _, hstands⟩ := hbody.stands hmem
    unfold Within
    rw [hspan]
    exact (hcut.apart_ident hstands hid).imp .symm fun h => ⟨hisUse, h⟩
  · exact .inl (TopLevel.Precedes.apart hprecedes hcut.spots
      (hspan ▸ TopLevel.spots_of_ident hid))

/-- The first line, at most, is changed before all else. -/
theorem opening_bounds {subject : Subject} {first : Nat}
    (h : ∀ span ∈ subject.program.hashbang, span.start = 0 ∧ span.stop ≤ first) :
    ∀ one ∈ (opening subject).changes, one.1.start = 0 ∧ one.1.stop ≤ first := by
  rw [opening_eq]
  intro one hone
  obtain ⟨span, hspan, rfl⟩ := List.mem_map.1 hone
  exact h span (Option.mem_toList.1 hspan)

theorem prologueOf_span {program : Program} {exports : List (String × String)} :
    ∀ one ∈ prologueOf program exports,
      one.1.start = prologueStart program ∧ one.1.stop = prologueStart program := by
  unfold prologueOf
  split
  · exact nofun
  · intro one hone
    obtain rfl := List.mem_singleton.1 hone
    exact ⟨rfl, rfl⟩

/-- The prologue stands before the statements, and behind the first line unless it is at the very
    start. -/
theorem prologueStart_bounds {program : Program} {first lo : Nat}
    (h : ∀ directive ∈ program.directives, first ≤ directive.span.start ∧
      directive.span.start ≤ directive.span.stop ∧ directive.span.stop ≤ lo) :
    prologueStart program ≤ lo ∧ (prologueStart program = 0 ∨ first ≤ prologueStart program) := by
  unfold prologueStart
  cases hlast : program.directives.getLast? with
  | none => exact ⟨Nat.zero_le _, .inl rfl⟩
  | some directive =>
    obtain ⟨hstart, hfilled, hstop⟩ := h directive (List.mem_of_getLast? hlast)
    exact ⟨hstop, .inr (Nat.le_trans hstart hfilled)⟩

/-- Changes to statements, and to uses of what is imported, stand behind the offset from which on
    the statements stand, and end behind it. -/
theorem behind_of_mem {subject : Subject}
    (hanalysis : subject.analysis =
      Analysis.ofOccurrences (subject.program.occurrences .module)) {lo hi : Nat}
    (hbody : StandIn lo subject.program.body hi) {parts : List (List (Span × Change))}
    (hadds : List.Forall₂ Adds (lowerOrder subject.program) parts) {plan : Plan}
    {one : Span × Change}
    (hone : one ∈ parts.flatten ++ usesOf subject.source plan subject.analysis.found.reverse) :
    lo ≤ one.1.start ∧ lo < one.1.stop := by
  rcases List.mem_append.1 hone with hone | hone
  · obtain ⟨statement, hmem, hcut⟩ := isCut_of_mem_flatten hadds hone
    obtain ⟨lo', hi', hle, hstands⟩ := hbody.stands_behind ((lowerOrder_perm _).subset hmem)
    have hstart := (hstands.bounds _ hcut.mem.1).1
    have hstop := hcut.lt_stop hstands
    omega
  · obtain ⟨-, statement, hmem, -, id, hid, hspan⟩ := ident_of_use hanalysis hone
    obtain ⟨lo', hi', hle, hstands⟩ := hbody.stands_behind hmem
    have hstart := (hstands.chain.bounds id hid).1
    have hfilled := hstands.chain.filled id hid
    rw [hspan]
    omega

/-- Two changes to a module have nothing in common, unless one of them is made to a use and the
    other one to the statement around it. -/
theorem make_apart_of {subject : Subject} (hstands : subject.program.Stands)
    (hanalysis : subject.analysis =
      Analysis.ofOccurrences (subject.program.occurrences .module))
    {within : Span × Change → Span × Change → Prop}
    (hwithin : ∀ statement ∈ subject.program.body, ∀ added, Adds statement added → ∀ one ∈ added,
      ∀ use ∈ usesOf subject.source (written subject) subject.analysis.found.reverse,
        one.1.Apart use.1 ∨ within use one) :
    (make subject).changes.Pairwise fun one other =>
      one.1.Apart other.1 ∨ within one other ∨ within other one := by
  obtain ⟨parts, hadds, hchanges⟩ := make_changes subject
  have huses := usesOf_apart hstands hanalysis (written subject)
  obtain ⟨first, lo, hi, hfirst, hbody, hhashbang, hdirectives⟩ := hstands.body
  have hopening := opening_bounds hhashbang
  obtain ⟨hstart, hline⟩ := prologueStart_bounds hdirectives
  have hperm := lowerOrder_perm subject.program
  have hparts := flatten_apart hadds (fun _ h => hbody.stands (hperm.subset h))
    ((hperm.pairwise_iff fun h => h.symm).2 hbody.precedes)
  have hbehind : ∀ one ∈ parts.flatten ++
      usesOf subject.source (written subject) subject.analysis.found.reverse,
      lo ≤ one.1.start := fun one hone => (behind_of_mem hanalysis hbody hadds hone).1
  rw [hchanges, List.append_assoc (opening subject).changes, List.pairwise_append,
    List.pairwise_append, List.pairwise_append]
  refine ⟨⟨?_, ⟨hparts.imp .inl, huses.imp .inl, ?_⟩, ?_⟩, ?_, ?_⟩
  · rw [opening_eq]
    cases subject.program.hashbang with
    | none => exact .nil
    | some => exact List.pairwise_singleton _ _
  · intro one hone other hother
    obtain ⟨statement, hmem, added, hadded, hone⟩ := adds_of_mem_flatten hadds hone
    exact (hwithin statement (hperm.subset hmem) added hadded one hone other hother).imp_right .inr
  -- The first line ends before all statements.
  · intro one hone other hother
    have := hopening one hone
    have := hbehind other hother
    exact .inl (.inl (by omega))
  · unfold prologueOf
    split
    · exact .nil
    · exact List.pairwise_singleton _ _
  -- The prologue takes nothing away, so it only must not fall into another change.
  · intro one hone other hother
    have hspan := prologueOf_span other hother
    refine .inl ?_
    unfold Span.Apart
    rcases List.mem_append.1 hone with hone | hone
    · have := hopening one hone
      omega
    · have := hbehind one hone
      omega

/-- Two changes to a module have nothing in common, or one of them is made to a use in what the
    other one takes away. -/
theorem make_apart {subject : Subject} (hstands : subject.program.Stands)
    (hanalysis : subject.analysis =
      Analysis.ofOccurrences (subject.program.occurrences .module)) :
    (make subject).changes.Pairwise fun one other =>
      one.1.Apart other.1 ∨ Within one other ∨ Within other one := by
  obtain ⟨-, lo, hi, -, hbody, -, -⟩ := hstands.body
  refine make_apart_of hstands hanalysis fun statement hmem added hadds one hone use huse => ?_
  exact apart_or_within hbody hmem (hadds.cuts one hone) (ident_of_use hanalysis huse)

/-- A change to a use is one of those that are made to uses of imported names. -/
theorem mem_usesOf {subject : Subject} {one : Span × Change} (hone : one ∈ (make subject).changes)
    (huse : one.2.isUse = true) :
    one ∈ usesOf subject.source (written subject) subject.analysis.found.reverse := by
  obtain ⟨parts, hadds, hchanges⟩ := make_changes subject
  rw [hchanges, List.mem_append, List.mem_append, List.mem_append] at hone
  rcases hone with ((hone | hone) | hone) | hone
  · rw [opening_eq] at hone
    obtain ⟨_, -, rfl⟩ := List.mem_map.1 hone
    cases huse
  · obtain ⟨statement, -, added, hadded, hone⟩ := adds_of_mem_flatten hadds hone
    rw [hadded.plain one hone] at huse
    cases huse
  · exact hone
  · unfold prologueOf at hone
    split at hone
    · cases hone
    · obtain rfl := List.mem_singleton.1 hone
      cases huse

/-- No change to a module ends before it starts. -/
theorem start_le_of_make {subject : Subject} (hstands : subject.program.Stands)
    {one : Span × Change} (hone : one ∈ (make subject).changes) (huse : one.2.isUse = false) :
    one.1.start ≤ one.1.stop := by
  obtain ⟨parts, hadds, hchanges⟩ := make_changes subject
  obtain ⟨first, lo, hi, -, hbody, hhashbang, -⟩ := hstands.body
  rw [hchanges, List.mem_append, List.mem_append, List.mem_append] at hone
  rcases hone with ((hone | hone) | hone) | hone
  · rw [(opening_bounds hhashbang one hone).1]
    exact Nat.zero_le _
  · obtain ⟨statement, hmem, hcut⟩ := isCut_of_mem_flatten hadds hone
    obtain ⟨_, _, hstand⟩ := hbody.stands ((lowerOrder_perm _).subset hmem)
    exact hcut.start_le hstand
  · rw [(usesOf_changes one hone).1] at huse
    cases huse
  · have hspan := prologueOf_span one hone
    omega

/-- Of two changes the one that starts first is tried first, and they are apart, or one of them is
    within the other one. -/
theorem inOrder_pairwise {subject : Subject} (hstands : subject.program.Stands)
    (hanalysis : subject.analysis =
      Analysis.ofOccurrences (subject.program.occurrences .module)) :
    (make subject).inOrder.Pairwise fun one other =>
      (one.1.start < other.1.start ∨ one.1.start = other.1.start ∧ one.1.stop ≤ other.1.stop) ∧
        (one.1.Apart other.1 ∨ Within one other ∨ Within other one) := by
  refine (make subject).inOrder_sorted.and
    (((make subject).inOrder_perm.pairwise_iff fun h => ?_).2 (make_apart hstands hanalysis))
  rcases h with h | h | h
  · exact .inl h.symm
  · exact .inr (.inr h)
  · exact .inr (.inl h)

/-- What is tried before a change ends before it, unless it is the change to a use. -/
theorem inOrder_apart {subject : Subject} (hstands : subject.program.Stands)
    (hanalysis : subject.analysis =
      Analysis.ofOccurrences (subject.program.occurrences .module)) :
    (make subject).inOrder.Pairwise fun one other =>
      other.2.isUse = false → one.1.stop ≤ other.1.start := by
  refine (inOrder_pairwise hstands hanalysis).imp_of_mem ?_
  rintro one other hone hother ⟨hsorted, hapart⟩ huse
  have hle := start_le_of_make hstands ((make subject).inOrder_perm.subset hother) huse
  -- Of two changes that start at one place the one that ends first is tried first.
  rcases hapart with (hapart | hapart) | hwithin | hwithin
  · exact hapart
  · omega
  · have := hwithin.2
    omega
  · rw [hwithin.1] at huse
    cases huse

/-- All changes to a module are made but for some to uses, in the order in which they are tried. -/
theorem flatMap_made {subject : Subject} (hstands : subject.program.Stands)
    (hanalysis : subject.analysis =
      Analysis.ofOccurrences (subject.program.occurrences .module)) {β : Type}
    {f : Span × Change → List β} (huse : ∀ one, one.2.isUse = true → f one = []) :
    (((make subject).pieces subject.source).filterMap Piece.change?).flatMap f =
      (make subject).inOrder.flatMap f := by
  refine flatMap_pieces f _ _ ((inOrder_apart hstands hanalysis).imp fun {_ other} h hne => h ?_)
  exact Bool.eq_false_iff.2 fun hisUse => hne (huse other hisUse)

/-- A change that is not one to a use is made. -/
theorem made_of_mem {subject : Subject} (hstands : subject.program.Stands)
    (hanalysis : subject.analysis =
      Analysis.ofOccurrences (subject.program.occurrences .module)) {one : Span × Change}
    (hone : one ∈ (make subject).changes) (huse : one.2.isUse = false) :
    ∃ old, .changed one.1 old one.2 ∈ (make subject).pieces subject.source := by
  have hmade := flatMap_made hstands hanalysis
    (f := fun one => if one.2.isUse then [] else [one]) fun one huse => if_pos huse
  have hmem : one ∈ (make subject).inOrder.flatMap
      fun one => if one.2.isUse then [] else [one] :=
    List.mem_flatMap.2 ⟨one, (make subject).inOrder_perm.mem_iff.2 hone, by simp [huse]⟩
  rw [← hmade] at hmem
  obtain ⟨other, hother, hmem⟩ := List.mem_flatMap.1 hmem
  obtain ⟨piece, hpiece, hchange⟩ := List.mem_filterMap.1 hother
  split at hmem
  · cases hmem
  · obtain rfl := List.mem_singleton.1 hmem
    cases piece with
    | kept => cases hchange
    | changed span old change =>
      cases hchange
      exact ⟨old, hpiece⟩

end Plan

/-! ### The lowered module -/

/-- A module that is examined is read, and its names are looked up. -/
theorem examine_ok {id source : String} {subject : Subject} (h : examine id source = .ok subject) :
    subject.source = source.toList ∧ Program.read .module source = .ok subject.program ∧
      subject.analysis = Analysis.ofOccurrences (subject.program.occurrences .module) := by
  obtain ⟨program, hread, -, -, -, rfl⟩ := examine_eq_ok_iff.1 h
  exact ⟨rfl, hread, rfl⟩

end Lowering

open Script Lowering

/-- A module that is lowered was examined, and changed after a plan. -/
theorem lower_ok {id source : String} {lowered : Lowered} (h : lower id source = .ok lowered) :
    ∃ subject, examine id source = .ok subject ∧
      lowered.code = String.ofList (Edit.apply subject.source (Plan.make subject).edits) ∧
      lowered.specifiers = (Plan.make subject).specifiers := by
  unfold lower at h
  dsimp only at h
  split at h
  · cases h
  obtain ⟨subject, hsubject, h⟩ := Except.bind_eq_ok.1 h
  cases h
  exact ⟨subject, hsubject, rfl, rfl⟩

/-- A module and the lowered module, made of the same pieces. -/
structure Made (source code : String) (program : Program) (pieces : List Piece) : Prop where
  /-- The tree is that of the module. -/
  read : Program.read .module source = .ok program
  /-- In the module the pieces are its text. -/
  before : pieces.flatMap Piece.before = source.toList
  /-- In the lowered module they are the code. -/
  after : pieces.flatMap Piece.after = code.toList

theorem exists_lower_of_isOk {id source : String} (h : (lower id source).isOk = true) :
    ∃ lowered, lower id source = .ok lowered := by
  cases hlower : lower id source with
  | ok lowered => exact ⟨lowered, rfl⟩
  | error error =>
    rw [hlower] at h
    cases h

/-- A lowered module is made of the pieces that its plan makes of the module. -/
theorem made_of_lower {id source : String} {lowered : Lowered} (h : lower id source = .ok lowered) :
    ∃ subject, examine id source = .ok subject ∧
      subject.analysis = Analysis.ofOccurrences (subject.program.occurrences .module) ∧
      Made source lowered.code subject.program ((Plan.make subject).pieces subject.source) ∧
      lowered.specifiers = (Plan.make subject).specifiers := by
  obtain ⟨subject, hsubject, hcode, hspecifiers⟩ := lower_ok h
  obtain ⟨hsource, hread, hanalysis⟩ := examine_ok hsubject
  refine ⟨subject, hsubject, hanalysis, ?_, hspecifiers⟩
  exact {
    read := hread
    before := by rw [Plan.before_pieces, hsource]
    after := by rw [Plan.after_pieces, hcode, String.toList_ofList] }

end Bundler

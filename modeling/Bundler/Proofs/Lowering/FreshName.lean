import Bundler.Proofs.Lowering.Changes
import Bundler.Script.Token
import Mathlib.Data.List.Perm.Subperm

/-!
# Fresh names

A name that is added to a module is searched for among the names of a base, the base itself and then
the base with the numbers from one, until one is found that is not taken. No two names of a base are
alike, so the search ends before it has tried more names than are taken, and one. What it finds is
taken from then on, so that no name is given twice, whatever the bases are.

* `FreshName.exists_choose`: the search for a name ends at the first one that is free;
* `IsFresh`: a name that may be given where others are taken;
* `Plan.freshAll`: the names that are given one after another;
* `needs`, `Plan.make_gives`: those that are given when a module is lowered;
* `Plan.areFresh_freshAll`: all of them are fresh.
-/

namespace Bundler

open Script Lowering

/-! ### Names in plain letters -/

namespace Lowering

/-- Whether a name can go on with a character, in plain letters. -/
def continuesName (c : Char) : Bool :=
  startsName c || c.isDigit

theorem isPlainName_iff {name : String} : isPlainName name = true ↔
    ∃ c rest, name.toList = c :: rest ∧ startsName c = true ∧
      ∀ d ∈ rest, continuesName d = true := by
  unfold isPlainName
  split
  next hnil => simp [hnil]
  next c rest hcons => simp [hcons, continuesName]

/-- A name may go on. -/
theorem isPlainName_append {name more : String} (h : isPlainName name = true)
    (hmore : ∀ c ∈ more.toList, continuesName c = true) : isPlainName (name ++ more) = true := by
  obtain ⟨c, rest, hname, hc, hrest⟩ := isPlainName_iff.1 h
  refine isPlainName_iff.2 ⟨c, rest ++ more.toList, ?_, hc, ?_⟩
  · rw [String.toList_append, hname, List.cons_append]
  · exact fun d hd => (List.mem_append.1 hd).elim (hrest d) (hmore d)

end Lowering

/-! ### The search -/

namespace FreshName

/-- No two names of a base are alike. -/
theorem candidate_injective (base : String) : Function.Injective (candidate base) := by
  have hlonger (n : Nat) : base ≠ base ++ "_" ++ Nat.repr (n + 1) := by
    intro h
    have hlength := congrArg String.length h
    rw [String.length_append, String.length_append] at hlength
    have hmark : "_".length = 1 := rfl
    omega
  intro n m h
  match n, m with
  | 0, 0 => rfl
  | 0, m + 1 => exact absurd h (hlonger m)
  | n + 1, 0 => exact absurd h.symm (hlonger n)
  | n + 1, m + 1 => exact Nat.repr_injective ((String.append_right_inj _).1 h)

/-- Of one name more than are taken, one is free. -/
theorem exists_free (taken : List String) (base : String) :
    ∃ n ≤ taken.length, candidate base n ∉ taken := by
  by_contra hall
  push Not at hall
  have hsubset : (List.range (taken.length + 1)).map (candidate base) ⊆ taken := by
    intro name hname
    obtain ⟨n, hn, rfl⟩ := List.mem_map.1 hname
    exact hall n (Nat.le_of_lt_succ (List.mem_range.1 hn))
  have hnodup := (List.nodup_range (n := taken.length + 1)).map (candidate_injective base)
  have hlength := (hnodup.subperm hsubset).length_le
  rw [List.length_map, List.length_range] at hlength
  omega

/-- The search for a name ends: the first name of the base that is free is found, before more are
    tried than are taken, and one. -/
theorem exists_choose (taken : List String) (base : String) :
    ∃ n ≤ taken.length, choose taken base = candidate base n ∧ candidate base n ∉ taken ∧
      ∀ m < n, candidate base m ∈ taken := by
  unfold choose
  cases hfound : (List.range (taken.length + 1)).findSome? fun n =>
      if taken.contains (candidate base n) then none else some (candidate base n) with
  | none =>
    obtain ⟨n, hn, hfree⟩ := exists_free taken base
    have htaken := List.findSome?_eq_none_iff.1 hfound n (List.mem_range.2 (Nat.lt_succ_of_le hn))
    simp [hfree] at htaken
  | some name =>
    obtain ⟨before, n, after, hsplit, hname, hbefore⟩ := List.findSome?_eq_some_iff.1 hfound
    have hmem : n ∈ List.range (taken.length + 1) := hsplit ▸ by simp
    split at hname
    · cases hname
    next hfree =>
      refine ⟨n, Nat.le_of_lt_succ (List.mem_range.1 hmem), (Option.some.inj hname).symm,
        by simpa using hfree, fun m hm => ?_⟩
      -- The numbers are tried in order, so all that are less were tried before.
      have hordered := @List.pairwise_lt_range (taken.length + 1)
      rw [hsplit, List.pairwise_append, List.pairwise_cons] at hordered
      have hm' : m ∈ before ++ n :: after :=
        hsplit ▸ List.mem_range.2 (Nat.lt_trans hm (List.mem_range.1 hmem))
      rcases List.mem_append.1 hm' with hm' | hm'
      · simpa using hbefore m hm'
      · rcases List.mem_cons.1 hm' with rfl | hm'
        · exact absurd hm (Nat.lt_irrefl _)
        · exact absurd (hordered.2.1.1 m hm') (Nat.lt_asymm hm)

/-- The names of a base are in plain letters if it is. -/
theorem isPlainName_candidate {base : String} (h : isPlainName base = true) (n : Nat) :
    isPlainName (candidate base n) = true := by
  cases n with
  | zero => exact h
  | succ n =>
    refine isPlainName_append (isPlainName_append h fun c hc => ?_) fun c hc => ?_
    · obtain rfl : c = '_' := by simpa using hc
      rfl
    · rw [Nat.repr_eq_ofList_toDigits, String.toList_ofList] at hc
      have hdigit := Nat.isDigit_of_mem_toDigits (by decide) (by decide) hc
      rw [continuesName, hdigit, Bool.or_true]

/-- They start as it does. -/
theorem head?_candidate {base : String} {c : Char} (h : base.toList.head? = some c) (n : Nat) :
    (candidate base n).toList.head? = some c := by
  cases n with
  | zero => exact h
  | succ n => simp [candidate, h]

/-- The base for a module is in plain letters, whatever its specifier is. -/
theorem isPlainName_base (specifier : String) : isPlainName (base specifier) = true := by
  refine isPlainName_iff.2 ⟨'_', _, String.toList_ofList, rfl, fun d hd => ?_⟩
  obtain ⟨c, -, rfl⟩ := List.mem_map.1 hd
  split
  next hplain =>
    simpa [isPlain, continuesName, startsName, Char.isAlphanum, or_assoc, or_comm, or_left_comm]
      using hplain
  · rfl

theorem head?_base (specifier : String) : (base specifier).toList.head? = some '_' := by
  simp [base]

/-- A fresh name is not taken. -/
theorem choose_notMem (taken : List String) (base : String) : choose taken base ∉ taken := by
  obtain ⟨n, -, hchoose, hfree, -⟩ := exists_choose taken base
  rwa [hchoose]

/-- It starts as its base does. -/
theorem head?_choose (taken : List String) {base : String} {c : Char}
    (h : base.toList.head? = some c) : (choose taken base).toList.head? = some c := by
  obtain ⟨n, -, hchoose, -⟩ := exists_choose taken base
  rw [hchoose]
  exact head?_candidate h n

end FreshName

/-! ### One name after another -/

namespace Lowering

/-- What a fresh name is for. -/
inductive Need where
  /-- A variable for the module that a specifier names. -/
  | module (specifier : String)
  /-- A default export that has no name. -/
  | defaultExport
  deriving DecidableEq, Repr

/-- The base of the name. -/
def Need.base : Need → String
  | .module specifier => FreshName.base specifier
  | .defaultExport => Plan.defaultBase

/-- A name that may be given where some names are taken. -/
structure IsFresh (taken : List String) (need : Need) (name : String) : Prop where
  /-- It is the first name of its base that is not taken. Before it no more are tried than are
      taken. -/
  first : ∃ n ≤ taken.length, name = FreshName.candidate need.base n ∧
    ∀ m < n, FreshName.candidate need.base m ∈ taken
  /-- It is not taken. -/
  notMem : name ∉ taken
  /-- It is in plain letters. -/
  plain : isPlainName name = true
  /-- It starts with an underscore. -/
  head? : name.toList.head? = some '_'
  /-- It is no word that is not a name everywhere. -/
  word : name ∉ "await" :: (reservedWords ++ strictWords)

theorem Need.isPlainName_base (need : Need) : isPlainName need.base = true := by
  cases need with
  | module specifier => exact FreshName.isPlainName_base specifier
  | defaultExport => decide

theorem Need.head?_base (need : Need) : need.base.toList.head? = some '_' := by
  cases need with
  | module specifier => exact FreshName.head?_base specifier
  | defaultExport => rfl

/-- What is found for a need may be given. -/
theorem isFresh_choose (taken : List String) (need : Need) :
    IsFresh taken need (FreshName.choose taken need.base) := by
  obtain ⟨n, hn, hchoose, hfree, hbefore⟩ := FreshName.exists_choose taken need.base
  have hhead := FreshName.head?_candidate need.head?_base n
  rw [hchoose]
  refine ⟨⟨n, hn, rfl, hbefore⟩, hfree, FreshName.isPlainName_candidate need.isPlainName_base n,
    hhead, fun hword => ?_⟩
  have hwords : ∀ word ∈ "await" :: (reservedWords ++ strictWords),
      word.toList.head? ≠ some '_' := by decide
  exact hwords _ hword hhead

/-- Names that may be given one after another, each where those before it are taken as well. -/
inductive AreFresh : List String → List Need → List String → Prop
  /-- Nothing is needed. -/
  | nil {taken : List String} : AreFresh taken [] []
  /-- A name is given, and taken from then on. -/
  | cons {taken names : List String} {need : Need} {needs : List Need} {name : String}
    (h : IsFresh taken need name) (hmore : AreFresh (name :: taken) needs names) :
    AreFresh taken (need :: needs) (name :: names)

/-- None of them is taken before. -/
theorem AreFresh.notMem {taken names : List String} {needs : List Need}
    (h : AreFresh taken needs names) : ∀ name ∈ names, name ∉ taken := by
  induction h with
  | nil => exact nofun
  | cons h _ ih =>
    intro other hother
    rcases List.mem_cons.1 hother with rfl | hother
    · exact h.notMem
    · exact fun hmem => ih other hother (.tail _ hmem)

/-- No two of them are alike. -/
theorem AreFresh.nodup {taken names : List String} {needs : List Need}
    (h : AreFresh taken needs names) : names.Nodup := by
  induction h with
  | nil => exact .nil
  | cons _ hmore ih => exact List.nodup_cons.2 ⟨fun hmem => hmore.notMem _ hmem (.head _), ih⟩

namespace Plan

/-- The names that are given to some needs one after another, and the plan where they are taken. -/
def freshAll (plan : Plan) : List Need → List String × Plan
  | [] => ([], plan)
  | need :: more =>
    let (name, next) := plan.fresh need.base
    let (names, last) := next.freshAll more
    (name :: names, last)

theorem areFresh_names (plan : Plan) (needs : List Need) :
    AreFresh plan.taken needs (plan.freshAll needs).1 := by
  induction needs generalizing plan with
  | nil => exact .nil
  | cons need more ih => exact .cons (isFresh_choose _ need) (ih (plan.fresh need.base).2)

/-- The names that are given are taken. -/
theorem taken_freshAll (plan : Plan) (needs : List Need) :
    (plan.freshAll needs).2.taken = (plan.freshAll needs).1.reverse ++ plan.taken := by
  induction needs generalizing plan with
  | nil => rfl
  | cons need more ih =>
    refine (ih (plan.fresh need.base).2).trans ?_
    rw [freshAll, List.reverse_cons, List.append_assoc]
    rfl

/-- It matters only which names are taken. -/
theorem freshAll_congr {plan other : Plan} (h : plan.taken = other.taken) (needs : List Need) :
    (plan.freshAll needs).1 = (other.freshAll needs).1 := by
  induction needs generalizing plan other with
  | nil => rfl
  | cons need more ih =>
    have hname : (plan.fresh need.base).1 = (other.fresh need.base).1 :=
      congrArg (FreshName.choose · need.base) h
    have htaken : (plan.fresh need.base).2.taken = (other.fresh need.base).2.taken := by
      show (plan.fresh need.base).1 :: plan.taken = (other.fresh need.base).1 :: other.taken
      rw [hname, h]
    exact congrArg₂ List.cons hname (ih htaken)

theorem freshAll_append (plan : Plan) (needs more : List Need) :
    (plan.freshAll (needs ++ more)).2 = ((plan.freshAll needs).2.freshAll more).2 := by
  induction needs generalizing plan with
  | nil => rfl
  | cons need rest ih => exact ih (plan.fresh need.base).2

/-- A plan is made further, and names are given to some needs. -/
def Gives (plan : Plan) (needs : List Need) (after : Plan) : Prop :=
  after.taken = (plan.freshAll needs).2.taken

theorem Gives.append {plan next after : Plan} {needs more : List Need} (h : Gives plan needs next)
    (hmore : Gives next more after) : Gives plan (needs ++ more) after := by
  rw [Gives, freshAll_append, hmore, taken_freshAll, taken_freshAll, freshAll_congr h, h]

/-- No name is given where none is taken. -/
theorem Gives.of_eq {plan after : Plan} (h : after.taken = plan.taken) : Gives plan [] after :=
  h

/-- One name is given. -/
theorem Gives.of_fresh {plan before after : Plan} (hbefore : before.taken = plan.taken)
    (need : Need) (h : after.taken = (before.fresh need.base).2.taken) : Gives plan [need] after := by
  rw [Gives, h]
  show FreshName.choose before.taken need.base :: before.taken = _
  rw [hbefore]
  rfl

theorem taken_require (plan : Plan) (specifier : String) :
    (plan.require specifier).taken = plan.taken := by
  rw [require_eq]

theorem taken_foldl_exportAs {α : Type} (name : α → String) (value : Plan → α → String)
    (names : List α) (plan : Plan) :
    (names.foldl (fun plan one => plan.exportAs (name one) (value plan one)) plan).taken =
      plan.taken := by
  obtain ⟨_, hsame⟩ := foldl_exportAs_eq name value names plan
  rw [hsame]

end Plan

/-- The fresh names that a statement needs. An import of a whole module has a name of its own. -/
def needs : TopLevel → List Need
  | .importFrom _ specifiers source =>
    if (specifiers.getD []).isEmpty || (Plan.wholeName? (specifiers.getD [])).isSome then []
    else [.module source.value.toText]
  | .exportNames _ _ (some source) | .exportAll _ _ source => [.module source.value.toText]
  | .exportDefault _ (.func _ ⟨_, _, false⟩ none _ _ _) => [.defaultExport]
  | _ => []

namespace Plan

theorem importFrom_gives (analysis : Analysis) (plan : Plan) (span : Span)
    (specifiers : Option (List ImportSpecifier)) (source : Source) :
    Gives plan (needs (.importFrom span specifiers source))
      (importFrom analysis plan span (specifiers.getD []) source.value.toText) := by
  have hrequire := taken_require plan source.value.toText
  rw [needs]
  generalize specifiers.getD [] = specifiers
  unfold importFrom
  cases specifiers with
  | nil => exact .of_eq hrequire
  | cons first more =>
    cases wholeName? (first :: more) with
    | some name => exact .of_eq hrequire
    | none => exact .of_fresh hrequire (.module source.value.toText) rfl

theorem importsOf_gives (analysis : Analysis) (plan : Plan) (body : List TopLevel) :
    Gives plan ((body.filter TopLevel.isImport).flatMap needs) (importsOf analysis plan body) := by
  induction body generalizing plan with
  | nil => exact .of_eq rfl
  | cons statement more ih =>
    cases statement with
    | importFrom span specifiers source =>
      exact (importFrom_gives analysis plan span specifiers source).append (ih _)
    | _ => exact ih plan

theorem exportDefault_gives (source : List Char) (plan : Plan) (span : Span) (value : Node) :
    Gives plan (needs (.exportDefault span value)) (exportDefault source plan span value) := by
  unfold exportDefault
  split
  · exact .of_eq rfl
  · exact .of_fresh rfl .defaultExport rfl
  · exact .of_eq rfl
  next hfunction _ =>
    have hnone : needs (.exportDefault span value) = [] := by
      unfold needs
      split <;> grind
    rw [hnone]
    unfold exportValue
    split
    · exact .of_eq rfl
    · exact .of_eq rfl

theorem exportsOf_gives (subject : Subject) (but : List String) (plan : Plan)
    (body : List TopLevel) :
    Gives plan ((body.filter fun statement => !statement.isImport).flatMap needs)
      (exportsOf subject but plan body) := by
  -- The induction is on the statements. Each finds the names taken that those before it took.
  induction body generalizing plan with
  | nil => exact .of_eq rfl
  | cons statement more ih =>
    cases statement with
    | statement | importFrom => exact ih plan
    | exportDeclaration span declaration =>
      have hstep : Gives plan [] (exportDeclaration subject.analysis plan span declaration) :=
        .of_eq (taken_foldl_exportAs (fun name => name) (fun _ name => name) _ _)
      exact hstep.append (ih _)
    | exportNames span specifiers source =>
      cases source with
      | none =>
        have hstep : Gives plan [] (exportNames subject.analysis plan span specifiers) :=
          .of_eq (taken_foldl_exportAs (fun one : ExportSpecifier => one.exported.name) _ _ _)
        exact hstep.append (ih _)
      | some source =>
        have hstep : Gives plan [.module source.value.toText]
            (reExport plan span specifiers source.value.toText) :=
          .of_fresh (taken_require plan source.value.toText) _ rfl
        exact hstep.append (ih _)
    | exportDefault span value => exact (exportDefault_gives _ plan span value).append (ih _)
    | exportAll span exported source =>
      have hstep : Gives plan [.module source.value.toText]
          (reExportAll plan span exported but source.value.toText) :=
        .of_fresh (taken_require plan source.value.toText) _ rfl
      exact hstep.append (ih _)

/-- The names that are taken when a module is lowered: its own, and those that are given to the
    needs of its statements, the imports first. -/
theorem make_gives (subject : Subject) :
    Gives (start (namesIn subject.occurrences)) ((lowerOrder subject.program).flatMap needs)
      (make subject) := by
  have hopening : (opening subject).taken = (start (namesIn subject.occurrences)).taken := by
    rw [opening_eq]
  have hwritten := (importsOf_gives subject.analysis (opening subject) subject.program.body).append
    (exportsOf_gives subject (leftOut subject.analysis subject.program.body) _ subject.program.body)
  rw [make_eq, lowerOrder, List.flatMap_append]
  exact (Gives.of_eq hopening).append hwritten

/-- Names that are given one after another, for whatever needs, are fresh: each search ends with a
    name in plain letters that starts with an underscore and is no word of the language, and none of
    them was taken or given before. So are all names that are given when a module is lowered. -/
theorem areFresh_freshAll :
    (∀ (plan : Plan) (needs : List Need),
      AreFresh plan.taken needs (plan.freshAll needs).1 ∧ (plan.freshAll needs).1.Nodup ∧
        (plan.freshAll needs).1.Disjoint plan.taken) ∧
    ∀ subject : Subject, ∃ names,
      (make subject).taken = names.reverse ++ namesIn subject.occurrences ∧
      AreFresh (namesIn subject.occurrences) ((lowerOrder subject.program).flatMap needs) names := by
  refine ⟨fun plan needs => ?_, fun subject =>
    ⟨_, ?_, areFresh_names (start (namesIn subject.occurrences)) _⟩⟩
  · have hfresh := areFresh_names plan needs
    exact ⟨hfresh, hfresh.nodup, hfresh.notMem⟩
  · exact (make_gives subject).trans (taken_freshAll _ _)

-- A number that one base goes on with may be a part of another base.
example : ((start ["_b", "_b_1"]).freshAll
    [.module "./b.js", .module "./b_1.js", .defaultExport]).1 = ["_b_2", "_b_1_1", "_default"] := by
  decide

end Plan

end Lowering

end Bundler

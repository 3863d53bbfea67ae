import Bundler.Config
import Bundler.Proofs.Text.Offset

/-!
# What a file and a command line make together

A plan has each of its fields from the first of three places that tells it: the command line, the
file, the defaults. Only the entry has no default. Then the plan is looked at as a whole, so what
the file says in vain, as the command line says something else, is never looked at.

* `Config.Chosen`, `Config.Merged`: where the fields of a plan come from;
* `Config.fault?_eq_none_iff`, `Config.fault?_eq_some_iff`: what is wrong with a plan, and what
  first;
* `Config.merge_eq_ok_iff`, `Config.merge_eq_error_iff`: the plans that are made, and the faults
  where none is;
* `Config.merge_of_saysSame`: what the command line overrides makes no difference.
-/

namespace Bundler

/-- A path that a file tells, seen from the directory of the file: one from the root is what it is,
    and any other goes on from the directory. -/
def LoadedSettings.seen (loaded : LoadedSettings) (path : String) : String :=
  if Path.isAbsolute path then path else Path.join loaded.directory path

theorem LoadedSettings.seen_eq (loaded : LoadedSettings) (path : String) :
    loaded.seen path = Path.join loaded.directory path := by
  unfold seen
  split
  · next h => rw [Path.join, h, Bool.true_or, if_pos rfl]
  · rfl

namespace Config

variable {loaded : Option LoadedSettings} {overrides : Overrides} {plan : Plan}

/-- The value of a field that may be given, or else written, or else has a default. -/
inductive Chosen {α : Type} (given written default : Option α) : α → Prop where
  /-- What is given is taken. -/
  | given {value : α} (h : given = some value) : Chosen given written default value
  /-- What is written is taken where nothing is given. -/
  | written {value : α} (hgiven : given = none) (h : written = some value) :
    Chosen given written default value
  /-- The default is taken where nothing is given or written. -/
  | default {value : α} (hgiven : given = none) (hwritten : written = none)
    (h : default = some value) : Chosen given written default value

theorem chosen_iff {α : Type} {given written default : Option α} {value : α} :
    Chosen given written default value ↔ given.or (written.or default) = some value := by
  constructor
  · rintro (rfl | ⟨rfl, rfl⟩ | ⟨rfl, rfl, rfl⟩) <;> rfl
  · intro h
    cases hgiven : given with
    | some _ => exact .given (by simpa [hgiven] using h)
    | none =>
      cases hwritten : written with
      | some _ => exact .written rfl (by simpa [hgiven, hwritten] using h)
      | none => exact .default rfl rfl (by simpa [hgiven, hwritten] using h)

theorem Chosen.unique {α : Type} {given written default : Option α} {one other : α}
    (h : Chosen given written default one) (hother : Chosen given written default other) :
    one = other :=
  Option.some.inj ((chosen_iff.1 h).symm.trans (chosen_iff.1 hother))

theorem chosen_getD {α : Type} (given written : Option α) (default : α) :
    Chosen given written (some default) (given.getD (written.getD default)) := by
  rw [chosen_iff]
  cases given <;> cases written <;> rfl

/-- A plan whose fields come from the command line, else from the file, else from the defaults. -/
structure Merged (loaded : Option LoadedSettings) (overrides : Overrides) (plan : Plan) : Prop where
  entry : Chosen overrides.entry (loaded.bind fun file => file.settings.entry.map file.seen) none
    plan.entry
  directory : Chosen overrides.directory
    (loaded.map fun file => file.seen file.settings.output.directory)
    (some Output.default.directory)
    plan.output.directory
  fileName : Chosen overrides.fileName (loaded.map (·.settings.output.fileName))
    (some Output.default.fileName) plan.output.fileName
  format : Chosen none (loaded.map (·.settings.output.format)) (some Output.default.format)
    plan.output.format
  extensions : Chosen none (loaded.map (·.settings.extensions)) (some Locator.defaultExtensions)
    plan.extensions
  strictCycles : Chosen none (loaded.map (·.settings.strictCycles)) (some false) plan.strictCycles

/-- An entry is given or written. -/
def HasEntry (loaded : Option LoadedSettings) (overrides : Overrides) : Prop :=
  overrides.entry.isSome ∨ ∃ file ∈ loaded, file.settings.entry.isSome

/-- A file name with something in it that is no blank. -/
def IsNamed (name : String) : Prop :=
  ∃ c ∈ name.toList, Text.isBlank c = false

/-- An ending that starts with a dot and takes at least two bytes. -/
def IsEnding (ending : String) : Prop :=
  ending.toList.head? = some '.' ∧ 2 ≤ Text.byteLength ending.toList

theorem isBlankName_eq_false_iff {name : String} : isBlankName name = false ↔ IsNamed name := by
  simp [isBlankName, IsNamed]

theorem isExtension_iff {ending : String} : isExtension ending = true ↔ IsEnding ending := by
  rw [isExtension, IsEnding, Bool.and_eq_true, beq_iff_eq, decide_eq_true_iff]
  refine and_congr_right fun hhead => ?_
  obtain ⟨rest, hrest⟩ := List.head?_eq_some_iff.1 hhead
  rw [hrest, List.length_cons, Text.byteLength_cons]
  cases rest with
  | nil => decide
  | cons c rest =>
    have hdot := ('.' : Char).utf8Size_pos
    have hpos := Text.byteLength_pos (List.cons_ne_nil c rest)
    rw [List.length_cons]
    omega

/-- Nothing is wrong with a plan with a file name and with endings. -/
theorem fault?_eq_none_iff :
    fault? plan = none ↔
      IsNamed plan.output.fileName ∧ ∀ ending ∈ plan.extensions, IsEnding ending := by
  rw [fault?, ← isBlankName_eq_false_iff]
  cases isBlankName plan.output.fileName with
  | true => simp
  | false => simp [isExtension_iff]

/-- The file name is looked at before the endings, and these in their order. -/
theorem fault?_eq_some_iff {fault : ConfigFault} :
    fault? plan = some fault ↔
      ¬IsNamed plan.output.fileName ∧ fault = .blankFileName ∨
      IsNamed plan.output.fileName ∧ ∃ before ending after,
        plan.extensions = before ++ ending :: after ∧ (∀ earlier ∈ before, IsEnding earlier) ∧
          ¬IsEnding ending ∧ fault = .extension ending := by
  rw [fault?, ← isBlankName_eq_false_iff]
  cases isBlankName plan.output.fileName with
  | true => simp [eq_comm]
  | false =>
    simp only [Bool.false_eq_true, if_false, Option.map_eq_some_iff, List.find?_eq_some_iff_append,
      not_true, false_and, true_and, false_or, Bool.not_eq_eq_eq_not,
      Bool.not_true, Bool.not_not, isExtension_iff, ← Bool.not_eq_true]
    constructor
    · rintro ⟨ending, ⟨hending, before, after, hsplit, hbefore⟩, rfl⟩
      exact ⟨before, ending, after, hsplit, fun earlier hearlier => hbefore earlier hearlier,
        hending, rfl⟩
    · rintro ⟨before, ending, after, hsplit, hbefore, hending, rfl⟩
      exact ⟨ending, ⟨hending, before, after, hsplit,
        fun earlier hearlier => hbefore earlier hearlier⟩, rfl⟩

/-- The fields of a merged plan are told by where they come from. -/
theorem Merged.unique {other : Plan} (h : Merged loaded overrides plan)
    (hother : Merged loaded overrides other) : plan = other := by
  have hentry := h.entry.unique hother.entry
  have hdirectory := h.directory.unique hother.directory
  have hfileName := h.fileName.unique hother.fileName
  have hformat := h.format.unique hother.format
  have hextensions := h.extensions.unique hother.extensions
  have hcycles := h.strictCycles.unique hother.strictCycles
  cases plan with
  | mk entry output extensions strictCycles =>
    cases output
    simp_all

theorem hasEntry_iff :
    HasEntry loaded overrides ↔ ∃ entry, Chosen overrides.entry
      (loaded.bind fun file => file.settings.entry.map file.seen) none entry := by
  simp only [chosen_iff, Option.or_none, ← Option.isSome_iff_exists, Option.isSome_or,
    Bool.or_eq_true, HasEntry, Option.isSome_bind, Option.any_eq_true, Option.isSome_map,
    Option.mem_def]

/-- A plan, unless something is wrong with it. -/
def judged (plan : Plan) : Except Error Plan :=
  match fault? plan with
  | some fault => .error (.config fault)
  | none => .ok plan

theorem judged_of_sound (h : fault? plan = none) : judged plan = .ok plan := by
  rw [judged, h]

theorem judged_of_fault {fault : ConfigFault} (h : fault? plan = some fault) :
    judged plan = .error (.config fault) := by
  rw [judged, h]

/-- A merged plan is made, unless something is wrong with it. -/
theorem exists_merged {entry : String}
    (h : Chosen overrides.entry (loaded.bind fun file => file.settings.entry.map file.seen) none
      entry) :
    ∃ plan, Merged loaded overrides plan ∧
      merge loaded overrides = judged plan := by
  refine ⟨{
    entry
    output := {
      directory := overrides.directory.getD
        ((loaded.map fun file => file.seen file.settings.output.directory).getD
          Output.default.directory)
      fileName := overrides.fileName.getD
        ((loaded.map (·.settings.output.fileName)).getD Output.default.fileName)
      format := (loaded.map (·.settings.output.format)).getD Output.default.format }
    extensions := (loaded.map (·.settings.extensions)).getD Locator.defaultExtensions
    strictCycles := (loaded.map (·.settings.strictCycles)).getD false },
    ⟨h, chosen_getD _ _ _, chosen_getD _ _ _, chosen_getD none _ _, chosen_getD none _ _,
      chosen_getD none _ _⟩, ?_⟩
  have hentry := chosen_iff.1 h
  cases loaded with
  | none =>
    have htaken : (overrides.entry <|> Settings.default.entry.map (Path.join "")) = some entry := by
      simpa [Settings.default] using hentry
    simp only [merge, Option.map_none, Option.getD_none, htaken]
    rfl
  | some file =>
    have htaken :
        (overrides.entry <|> file.settings.entry.map (Path.join file.directory)) = some entry := by
      rw [← hentry]
      simp [funext file.seen_eq]
    simp only [merge, Option.map_some, Option.getD_some, htaken, file.seen_eq]
    rfl

theorem merge_of_not_hasEntry (h : ¬HasEntry loaded overrides) :
    merge loaded overrides = .error (.config .noEntry) := by
  obtain ⟨hgiven, hwritten⟩ := not_or.1 h
  rw [Option.not_isSome_iff_eq_none] at hgiven
  cases loaded with
  | none =>
    simp only [merge, hgiven, Option.map_none, Option.getD_none]
    rfl
  | some file =>
    have hnone : file.settings.entry = none :=
      Option.not_isSome_iff_eq_none.1 fun hsome => hwritten ⟨file, rfl, hsome⟩
    simp only [merge, hgiven, hnone, Option.map_some, Option.getD_some]
    rfl

theorem Merged.hasEntry (h : Merged loaded overrides plan) : HasEntry loaded overrides :=
  hasEntry_iff.2 ⟨plan.entry, h.entry⟩

/-- The plans that are made. -/
theorem merge_eq_ok_iff :
    merge loaded overrides = .ok plan ↔
      Merged loaded overrides plan ∧ IsNamed plan.output.fileName ∧
        ∀ ending ∈ plan.extensions, IsEnding ending := by
  by_cases hhas : HasEntry loaded overrides
  · obtain ⟨entry, hentry⟩ := hasEntry_iff.1 hhas
    obtain ⟨made, hmade, hmerge⟩ := exists_merged hentry
    rw [hmerge]
    constructor
    · intro h
      cases hfault : fault? made with
      | some fault =>
        rw [judged_of_fault hfault] at h
        cases h
      | none =>
        rw [judged_of_sound hfault] at h
        cases h
        exact ⟨hmade, fault?_eq_none_iff.1 hfault⟩
    · rintro ⟨hplan, hsound⟩
      obtain rfl := hmade.unique hplan
      exact judged_of_sound (fault?_eq_none_iff.2 hsound)
  · rw [merge_of_not_hasEntry hhas]
    exact iff_of_false nofun fun h => hhas h.1.hasEntry

/-- The faults where none is made, the first one each. -/
theorem merge_eq_error_iff {error : Error} :
    merge loaded overrides = .error error ↔
      ¬HasEntry loaded overrides ∧ error = .config .noEntry ∨
      ∃ plan fault, Merged loaded overrides plan ∧ fault? plan = some fault ∧
        error = .config fault := by
  by_cases hhas : HasEntry loaded overrides
  · obtain ⟨entry, hentry⟩ := hasEntry_iff.1 hhas
    obtain ⟨made, hmade, hmerge⟩ := exists_merged hentry
    rw [hmerge]
    constructor
    · intro h
      cases hfault : fault? made with
      | none =>
        rw [judged_of_sound hfault] at h
        cases h
      | some fault =>
        rw [judged_of_fault hfault] at h
        cases h
        exact .inr ⟨made, fault, hmade, hfault, rfl⟩
    · rintro (⟨hnone, -⟩ | ⟨plan, fault, hplan, hfault, rfl⟩)
      · exact absurd hhas hnone
      · obtain rfl := hmade.unique hplan
        exact judged_of_fault hfault
  · rw [merge_of_not_hasEntry hhas, Except.error.injEq]
    constructor
    · rintro rfl
      exact .inl ⟨hhas, rfl⟩
    · rintro (⟨-, rfl⟩ | ⟨plan, -, hplan, -⟩)
      · rfl
      · exact absurd hplan.hasEntry hhas

/-- Two files from one directory that differ at most in what the command line overrides. -/
structure SaysSame (overrides : Overrides) (file other : LoadedSettings) : Prop where
  base : file.directory = other.directory
  entry : overrides.entry = none → file.settings.entry = other.settings.entry
  directory : overrides.directory = none →
    file.settings.output.directory = other.settings.output.directory
  fileName : overrides.fileName = none →
    file.settings.output.fileName = other.settings.output.fileName
  format : file.settings.output.format = other.settings.output.format
  extensions : file.settings.extensions = other.settings.extensions
  strictCycles : file.settings.strictCycles = other.settings.strictCycles

/-- What the command line overrides makes no difference. -/
theorem merge_of_saysSame {file other : LoadedSettings} (h : SaysSame overrides file other) :
    merge (some file) overrides = merge (some other) overrides := by
  have hentry : (overrides.entry <|> file.settings.entry.map (Path.join file.directory)) =
      (overrides.entry <|> other.settings.entry.map (Path.join other.directory)) := by
    cases hgiven : overrides.entry with
    | some _ => rfl
    | none => rw [h.entry hgiven, h.base]
  have hdirectory :
      overrides.directory.getD (Path.join file.directory file.settings.output.directory) =
        overrides.directory.getD (Path.join other.directory other.settings.output.directory) := by
    cases hgiven : overrides.directory with
    | some _ => rfl
    | none => rw [h.directory hgiven, h.base]
  have hfileName : overrides.fileName.getD file.settings.output.fileName =
      overrides.fileName.getD other.settings.output.fileName := by
    cases hgiven : overrides.fileName with
    | some _ => rfl
    | none => rw [h.fileName hgiven]
  simp only [merge, Option.map_some, Option.getD_some, hentry, hdirectory, hfileName, h.format,
    h.extensions, h.strictCycles]

/-- A plan is made if an entry is given or written, the file name it comes to is not blank, and the
    endings it comes to are endings. Each of its fields is what the command line gives, else what
    the file says, with paths seen from its directory, else the default. Where none is made, the
    entry is at fault before the file name, and that before the first ending that is none. What the
    file says makes no difference where the command line overrides it. -/
theorem merge_settled (loaded : Option LoadedSettings) (overrides : Overrides) :
    ((∃ plan, merge loaded overrides = .ok plan) ↔
      HasEntry loaded overrides ∧
      (∀ name, Chosen overrides.fileName (loaded.map (·.settings.output.fileName))
        (some Output.default.fileName) name → IsNamed name) ∧
      ∀ endings, Chosen none (loaded.map (·.settings.extensions)) (some Locator.defaultExtensions)
        endings → ∀ ending ∈ endings, IsEnding ending) ∧
    (∀ plan, merge loaded overrides = .ok plan → Merged loaded overrides plan) ∧
    (∀ error, merge loaded overrides = .error error ↔
      ¬HasEntry loaded overrides ∧ error = .config .noEntry ∨
      ∃ plan, Merged loaded overrides plan ∧
        (¬IsNamed plan.output.fileName ∧ error = .config .blankFileName ∨
          IsNamed plan.output.fileName ∧ ∃ before ending after,
            plan.extensions = before ++ ending :: after ∧ (∀ earlier ∈ before, IsEnding earlier) ∧
              ¬IsEnding ending ∧ error = .config (.extension ending))) ∧
    ∀ file other, SaysSame overrides file other →
      merge (some file) overrides = merge (some other) overrides := by
  refine ⟨⟨?_, ?_⟩, fun plan h => (merge_eq_ok_iff.1 h).1, fun error => ?_,
    fun _ _ => merge_of_saysSame⟩
  · rintro ⟨plan, h⟩
    obtain ⟨hplan, hname, hendings⟩ := merge_eq_ok_iff.1 h
    refine ⟨hplan.hasEntry, fun name hchosen => ?_, fun endings hchosen => ?_⟩
    · exact hplan.fileName.unique hchosen ▸ hname
    · exact hplan.extensions.unique hchosen ▸ hendings
  · rintro ⟨hhas, hname, hendings⟩
    obtain ⟨entry, hentry⟩ := hasEntry_iff.1 hhas
    obtain ⟨plan, hplan, -⟩ := exists_merged hentry
    exact ⟨plan, merge_eq_ok_iff.2 ⟨hplan, hname _ hplan.fileName, hendings _ hplan.extensions⟩⟩
  -- A fault of a plan is one of its file name or one of its endings.
  · rw [merge_eq_error_iff]
    refine or_congr_right (exists_congr fun plan => ?_)
    constructor
    · rintro ⟨fault, hplan, hfault, rfl⟩
      rcases fault?_eq_some_iff.1 hfault with ⟨hname, rfl⟩ | ⟨hname, before, ending, after, hsplit,
        hbefore, hending, rfl⟩
      · exact ⟨hplan, .inl ⟨hname, rfl⟩⟩
      · exact ⟨hplan, .inr ⟨hname, before, ending, after, hsplit, hbefore, hending, rfl⟩⟩
    · rintro ⟨hplan, ⟨hname, rfl⟩ | ⟨hname, before, ending, after, hsplit, hbefore, hending, rfl⟩⟩
      · exact ⟨.blankFileName, hplan, fault?_eq_some_iff.2 (.inl ⟨hname, rfl⟩), rfl⟩
      · exact ⟨.extension ending, hplan, fault?_eq_some_iff.2
          (.inr ⟨hname, before, ending, after, hsplit, hbefore, hending, rfl⟩), rfl⟩

/-- Settings with a blank file name, and an ending without a dot behind one that has it. -/
def careless : Settings :=
  { Settings.default with
    entry := some "src/main.js"
    output := { Output.default with fileName := " " }
    extensions := [".js", "mjs"] }

/-- The blank file name is at fault before the ending, but not where another one is given. -/
theorem merge_settled_careless :
    merge (some ⟨careless, "/proj"⟩) ⟨none, none, none⟩ = .error (.config .blankFileName) ∧
      merge (some ⟨careless, "/proj"⟩) ⟨none, some "/out", some "app.js"⟩ =
        .error (.config (.extension "mjs")) ∧
      merge (some ⟨careless, "/proj"⟩) ⟨some "/main.js", none, some "app.js"⟩ =
        merge (some ⟨{ careless with entry := none, output := .default }, "/proj"⟩)
          ⟨some "/main.js", none, some "app.js"⟩ := by
  have hname : ¬IsNamed " " := by
    rw [← isBlankName_eq_false_iff]
    decide
  have hother : IsNamed "app.js" := ⟨'a', .head _, by decide⟩
  refine ⟨?_, ?_, ?_⟩
  · refine ((merge_settled _ _).2.2.1 _).2 (.inr ⟨⟨"/proj/src/main.js",
      ⟨"/proj/dist", " ", true⟩, [".js", "mjs"], false⟩, ?_, .inl ⟨hname, rfl⟩⟩)
    exact ⟨.written rfl (by decide +kernel), .written rfl (by decide +kernel), .written rfl rfl,
      .written rfl rfl, .written rfl rfl, .written rfl rfl⟩
  · refine ((merge_settled _ _).2.2.1 _).2 (.inr ⟨⟨"/proj/src/main.js",
      ⟨"/out", "app.js", true⟩, [".js", "mjs"], false⟩, ?_, .inr ⟨hother, [".js"], "mjs", [], rfl,
        ?_, ?_, rfl⟩⟩)
    · exact ⟨.written rfl (by decide +kernel), .given rfl, .given rfl, .written rfl rfl,
        .written rfl rfl, .written rfl rfl⟩
    · exact List.forall_mem_singleton.2 ⟨rfl, by decide⟩
    · exact fun h => absurd h.1 (by decide)
  · exact (merge_settled (some ⟨careless, "/proj"⟩) _).2.2.2 _ _
      ⟨rfl, nofun, fun _ => rfl, nofun, rfl, rfl, rfl⟩

end Config

end Bundler

import Bundler.Proofs.Config.Fields

/-!
# Settings as texts

What is written for settings is read as these settings, in every layout and whatever the strings
hold. And a text may change in what says nothing: the order of the members, unknown members, and
fields that say what is taken without them, in the settings and in their parts.

* `Output.group`, `Config.resolveGroup`, `Config.runtimeGroup`, `Settings.group`: the fields of
  settings and of their parts;
* `Settings.ofJson?_toJson`: the value of settings is read as these settings;
* `Settings.ofJson?_of_varies`: changes that say nothing are not seen;
* `Settings.parse?_written`: both for the texts of values.
-/

namespace Bundler

open Json

/-! ### Values of settings -/

namespace Json

/-- Members whose names are written as their texts are read under these. -/
theorem fields?_members (names : List String) (members : List (String × Json)) :
    fields? names (.object (members.map fun field => member field.1 field.2)) =
      names.mapM fun name => only? ((members.filter (·.1 == name)).map Prod.snd) := by
  have hreadable : Readable (members.map fun field => member field.1 field.2) := by
    refine List.forall_mem_map.2 fun field _ => ?_
    rw [member, Text.unescape_escapeAll]
    rfl
  rw [fields?_object_of_readable hreadable]
  congr 1
  funext name
  rw [valuesOf, List.filter_map, List.map_map]
  congr 2
  refine List.filter_congr fun field _ => ?_
  simp [member, Text.unescape_escapeAll, String.toList_inj]

theorem fits_members {depth : Nat} {members : List (String × Json)}
    (h : ∀ field ∈ members, Fits depth field.2) :
    Fits (depth + 1) (.object (members.map fun field => member field.1 field.2)) :=
  .object (List.forall_mem_map.2 fun _ _ => isInside_escapeAll _) (List.forall_mem_map.2 h)

theorem text?_string (text : String) : (string text).text? = some text := by
  rw [string, text?, Text.unescape_escapeAll, Option.map_some, String.ofList_toList]

theorem texts?_array (texts : List String) : texts? (.array (texts.map string)) = some texts := by
  rw [texts?]
  induction texts with
  | nil => rfl
  | cons text texts ih =>
    rw [List.map_cons, List.mapM_cons, ih, text?_string]
    rfl

end Json

namespace Output

/-- What is written for an output is read as this output. -/
theorem ofJson?_toJson (output : Output) : ofJson? output.toJson = some output := by
  have hfields : output.toJson.fields? ["path", "filename", "format"] =
      some [some (.string output.directory), some (.string output.fileName),
        some (.bool output.format)] :=
    fields?_members ["path", "filename", "format"] [("path", .string output.directory),
      ("filename", .string output.fileName), ("format", .bool output.format)]
  rw [ofJson?, hfields]
  simp only [Option.bind_eq_bind, Option.bind_some, orElse, text?_string, bool?, Option.pure_def]

/-- A field of an output says what is taken without it. -/
def IsDefault : String → Json → Prop
  | "path", value => value.text? = some default.directory
  | "filename", value => value.text? = some default.fileName
  | "format", value => value.bool? = some default.format
  | _, _ => False

/-- The fields of an output. -/
def group : Group :=
  .flat ["path", "filename", "format"] IsDefault

/-- A change that says nothing leaves the output that is read. -/
theorem ofJson?_of_alters {value other : Json} (h : group.Alters value other) :
    ofJson? value = ofJson? other := by
  have hfields := h.agreeAll_fields?
  change Option.Rel (group.AgreeAll ["path", "filename", "format"])
    (value.fields? ["path", "filename", "format"])
    (other.fields? ["path", "filename", "format"]) at hfields
  rw [ofJson?, ofJson?]
  generalize value.fields? ["path", "filename", "format"] = fields,
    other.fields? ["path", "filename", "format"] = others at hfields ⊢
  obtain hfields | - := hfields
  · obtain _ | ⟨hdirectory, _ | ⟨hfileName, _ | ⟨hformat, _ | _⟩⟩⟩ := hfields
    dsimp only [Option.bind_eq_bind, Option.bind_some]
    rw [hdirectory.orElse_eq nofun id, hfileName.orElse_eq nofun id, hformat.orElse_eq nofun id]
  · rfl

end Output

namespace Config

/-- What is said of the extensions is what is taken without it. -/
def IsDefaultResolve : String → Json → Prop
  | "extensions", value => value.texts? = some Locator.defaultExtensions
  | _, _ => False

/-- What is said of the loader is what is taken without it. -/
def IsDefaultRuntime : String → Json → Prop
  | "strictCycles", value => value.bool? = some false
  | _, _ => False

/-- The fields of what is said of the extensions. -/
def resolveGroup : Group :=
  .flat ["extensions"] IsDefaultResolve

/-- The fields of what is said of the loader. -/
def runtimeGroup : Group :=
  .flat ["strictCycles"] IsDefaultRuntime

theorem extensions?_of_alters {value other : Json} (h : resolveGroup.Alters value other) :
    extensions? value = extensions? other :=
  h.single_eq rfl nofun id

theorem strictCycles?_of_alters {value other : Json} (h : runtimeGroup.Alters value other) :
    strictCycles? value = strictCycles? other :=
  h.single_eq rfl nofun id

theorem extensions?_written (extensions : List String) :
    extensions? (.object [Json.member "extensions" (.array (extensions.map .string))]) =
      some extensions := by
  have hfields : (Json.object [Json.member "extensions" (.array (extensions.map .string))]).fields?
      ["extensions"] = some [some (.array (extensions.map .string))] :=
    fields?_members ["extensions"] [("extensions", .array (extensions.map .string))]
  rw [extensions?, hfields]
  simp only [Option.bind_eq_bind, Option.bind_some, orElse, texts?_array]

theorem strictCycles?_written (strictCycles : Bool) :
    strictCycles? (.object [Json.member "strictCycles" (.bool strictCycles)]) =
      some strictCycles := by
  have hfields : (Json.object [Json.member "strictCycles" (.bool strictCycles)]).fields?
      ["strictCycles"] = some [some (.bool strictCycles)] :=
    fields?_members ["strictCycles"] [("strictCycles", .bool strictCycles)]
  rw [strictCycles?, hfields]
  simp only [Option.bind_eq_bind, Option.bind_some, orElse, bool?]

end Config

namespace Settings

/-- The members that are written for settings, by their names. -/
def members (settings : Settings) : List (String × Json) :=
  (settings.entry.map fun entry => ("entry", .string entry)).toList ++
    [("output", settings.output.toJson),
      ("resolve", .object [member "extensions" (.array (settings.extensions.map .string))]),
      ("runtime", .object [member "strictCycles" (.bool settings.strictCycles)])]

theorem toJson_eq (settings : Settings) :
    settings.toJson = .object (settings.members.map fun field => member field.1 field.2) := by
  obtain ⟨entry, output, extensions, strictCycles⟩ := settings
  cases entry <;> rfl

/-- What is written for settings is read as these settings. -/
theorem ofJson?_toJson (settings : Settings) : ofJson? settings.toJson = some settings := by
  have hfields : settings.toJson.fields? Config.groupNames =
      some [settings.entry.map .string, some settings.output.toJson,
        some (.object [member "extensions" (.array (settings.extensions.map .string))]),
        some (.object [member "strictCycles" (.bool settings.strictCycles)])] := by
    rw [toJson_eq, fields?_members]
    obtain ⟨entry, output, extensions, strictCycles⟩ := settings
    cases entry <;> rfl
  have hentry : orElse entry? none (settings.entry.map .string) = some settings.entry := by
    cases settings.entry with
    | none => rfl
    | some entry =>
      rw [Option.map_some, orElse, entry?, text?_string]
      · rfl
      · exact nofun
  rw [ofJson?, hfields]
  simp only [Option.bind_eq_bind, Option.bind_some, hentry]
  simp only [orElse, Output.ofJson?_toJson, Config.extensions?_written,
    Config.strictCycles?_written]
  simp [toJson, mayLackEntry]

/-- A field of settings says what is taken without it. -/
def IsDefault : String → Json → Prop
  | "entry", value => entry? value = some none
  | "output", value => Output.ofJson? value = some .default
  | "resolve", value => Config.extensions? value = some Locator.defaultExtensions
  | "runtime", value => Config.strictCycles? value = some false
  | _, _ => False

/-- A field of settings changes in its parts. -/
def Inner : String → Json → Json → Prop
  | "output", value, other => Output.group.Alters value other
  | "resolve", value, other => Config.resolveGroup.Alters value other
  | "runtime", value, other => Config.runtimeGroup.Alters value other
  | _, _, _ => False

/-- The fields of settings. -/
def group : Group :=
  { names := Config.groupNames
    IsDefault
    Inner }

/-- A change that says nothing leaves the settings that are read. -/
theorem ofJson?_of_alters {value other : Json} (h : group.Alters value other) :
    ofJson? value = ofJson? other := by
  have hfields := h.agreeAll_fields?
  change Option.Rel (group.AgreeAll ["entry", "output", "resolve", "runtime"])
    (value.fields? Config.groupNames) (other.fields? Config.groupNames) at hfields
  -- An array that changes in an element has an entry, before the change and after it.
  have hlack : ∀ {entry change fields others},
      value.fields? Config.groupNames = some (entry :: fields) →
        other.fields? Config.groupNames = some (change :: others) →
          (entry.isNone && !mayLackEntry value) = (change.isNone && !mayLackEntry other) := by
    intro entry change fields others hvalue hother
    cases h with
    | reorder | drop | add | within => simp only [mayLackEntry, Bool.not_true, Bool.and_false]
    | element =>
      have hne : ∀ {before after : List Json} {element : Json}, before ++ element :: after ≠ [] :=
        List.append_ne_nil_of_right_ne_nil _ (List.cons_ne_nil _ _)
      rw [Option.isNone_eq_false_iff.2 (Group.isSome_of_fields?_array hne hvalue),
        Option.isNone_eq_false_iff.2 (Group.isSome_of_fields?_array hne hother)]
      rfl
  rw [ofJson?, ofJson?]
  generalize value.fields? Config.groupNames = fields, other.fields? Config.groupNames = others
    at hfields hlack ⊢
  obtain hfields | - := hfields
  · obtain _ | ⟨hentry, _ | ⟨houtput, _ | ⟨hresolve, _ | ⟨hruntime, _ | _⟩⟩⟩⟩ := hfields
    dsimp only [Option.bind_eq_bind, Option.bind_some]
    rw [hlack rfl rfl, hentry.orElse_eq nofun id, houtput.orElse_eq Output.ofJson?_of_alters id,
      hresolve.orElse_eq Config.extensions?_of_alters id,
      hruntime.orElse_eq Config.strictCycles?_of_alters id]
  · rfl

/-- Changes that say nothing leave the settings that are read. -/
theorem ofJson?_of_varies {value other : Json} (h : group.Varies value other) :
    ofJson? value = ofJson? other := by
  induction h with
  | refl => rfl
  | tail _ h ih => exact ih.trans (ofJson?_of_alters h)

/-! ### Texts of settings -/

theorem fits_of_inner {name : String} {value other : Json} {depth : Nat}
    (h : group.Inner name value other) (hfits : Fits depth value) : Fits depth other := by
  change Inner name value other at h
  unfold Inner at h
  split at h
  · exact h.fits hfits nofun
  · exact h.fits hfits nofun
  · exact h.fits hfits nofun
  · exact h.elim

/-- Changes that say nothing make no value that nests deeper. -/
theorem fits_of_varies {value other : Json} {depth : Nat} (h : group.Varies value other)
    (hfits : Fits depth value) : Fits depth other := by
  induction h with
  | refl => exact hfits
  | tail _ h ih => exact h.fits ih fits_of_inner

/-- The value of settings can be written, and nests three levels deep. -/
theorem fits_toJson (settings : Settings) (depth : Nat) : Fits (depth + 3) settings.toJson := by
  have houtput : Fits (depth + 2) settings.output.toJson :=
    @fits_members (depth + 1) [("path", .string settings.output.directory),
      ("filename", .string settings.output.fileName), ("format", .bool settings.output.format)]
      (by simp [Fits.string, Fits.bool])
  have hextensions : Fits (depth + 1) (.array (settings.extensions.map .string)) :=
    .array (List.forall_mem_map.2 fun _ _ => .string _)
  have hresolve := @fits_members (depth + 1)
    [("extensions", .array (settings.extensions.map .string))]
    (List.forall_mem_singleton.2 hextensions)
  have hruntime := @fits_members (depth + 1) [("strictCycles", .bool settings.strictCycles)]
    (List.forall_mem_singleton.2 (.bool _))
  rw [toJson_eq]
  refine fits_members (List.forall_mem_append.2 ⟨?_, ?_⟩)
  · rintro field hfield
    obtain ⟨entry, -, rfl⟩ := Option.map_eq_some_iff.1 (Option.mem_toList.1 hfield)
    exact .string entry
  · exact List.forall_mem_cons.2 ⟨houtput, List.forall_mem_cons.2 ⟨hresolve,
      List.forall_mem_singleton.2 hruntime⟩⟩

/-- A text of a value is read as the settings that the value writes. -/
theorem parse?_of_spells {depth : Nat} {value : Json} {text : String}
    (h : Spells depth value text.toList) (hfits : Fits maxDepth value) :
    parse? text = ofJson? value := by
  rw [parse?, parse?_of_spells_of_fits h hfits]
  rfl

/-- A text that is written for settings, in whatever layout, is read as these settings; and a text
    that changes in what says nothing is read as before. -/
theorem parse?_written :
    (∀ settings : Settings,
      parse? settings.render = some settings ∧
      parse? (String.ofList settings.toJson.compact) = some settings ∧
      ∀ (depth : Nat) (text : String), Spells depth settings.toJson text.toList →
        parse? text = some settings) ∧
    ∀ (value other : Json) (depth : Nat) (text change : String),
      Spells maxDepth value text.toList → group.Varies value other →
        Spells depth other change.toList → parse? change = parse? text := by
  constructor
  · intro settings
    have hfits : Fits maxDepth settings.toJson := settings.fits_toJson 124
    have hread : ∀ (depth : Nat) (text : String), Spells depth settings.toJson text.toList →
        parse? text = some settings := by
      intro depth text h
      rw [parse?_of_spells h hfits, ofJson?_toJson]
    refine ⟨hread maxDepth _ ?_, hread maxDepth _ ?_, hread⟩
    · rw [render, String.toList_ofList]
      exact (hfits.writes_pretty 0).spells
    · rw [String.toList_ofList]
      exact hfits.writes_compact.spells
  · intro value other depth text change htext hvaries hchange
    have hfits : Fits maxDepth value := htext.fits
    rw [parse?_of_spells hchange (fits_of_varies hvaries hfits), parse?_of_spells htext hfits,
      ofJson?_of_varies hvaries]

/-- A file may say what a build takes anyway, and things that no build asks for. -/
theorem parse?_written_rearranged :
    parse? "\x7b\"note\":null,\"runtime\":\x7b\"level\":3\x7d,\"entry\":\"a.js\"\x7d" =
      some { Settings.default with entry := some "a.js" } := by
  have hname : ∀ name : String, Text.unescape (Text.escapeAll name.toList) = some name.toList :=
    fun name => Text.unescape_escapeAll _
  have hdigits : IsDigits ['3'] := ⟨by decide, List.forall_mem_singleton.2 (by decide)⟩
  have hnumber : IsNumber ['3'] :=
    @IsNumber.parts [] ['3'] [] [] (.inl rfl) (.digits hdigits (by decide)) .none .none
  let settings : Settings := { Settings.default with entry := some "a.js" }
  let entry := member "entry" (.string "a.js")
  let resolve := member "resolve"
    (.object [member "extensions" (.array (Locator.defaultExtensions.map .string))])
  let runtime (members : List (List Char × Json)) := member "runtime" (.object members)
  let cycles := member "strictCycles" (.bool false)
  let note := member "note" .null
  let level := member "level" (.number ['3'])
  have hvaries : Relation.ReflTransGen group.Alters settings.toJson
      (.object [note, runtime [level], entry]) :=
    calc
      Relation.ReflTransGen group.Alters settings.toJson
          (.object [entry, resolve, runtime [cycles]]) :=
        .single (@Group.Alters.drop group [entry] _ _ "output" Output.default.toJson (hname _)
          (by simp [entry, member, Text.unescape_escapeAll]) (Output.ofJson?_toJson _))
      Relation.ReflTransGen group.Alters _ (.object [entry, runtime [cycles]]) :=
        .single (@Group.Alters.drop group [entry] _ _ "resolve" _ (hname _)
          (by simp [entry, runtime, member, Text.unescape_escapeAll]) (Config.extensions?_written _))
      Relation.ReflTransGen group.Alters _ (.object [entry, runtime []]) :=
        .single (@Group.Alters.within group [entry] [] _ "runtime" _ _ (hname _)
          (@Group.Alters.drop Config.runtimeGroup [] [] _ "strictCycles" _ (hname _) nofun rfl))
      Relation.ReflTransGen group.Alters _ (.object [entry, runtime [level]]) :=
        .single (@Group.Alters.within group [entry] [] _ "runtime" _ _ (hname _)
          (@Group.Alters.add Config.runtimeGroup [] [] _ "level" _ (isInside_escapeAll _) (hname _)
            (by decide) (.number hnumber)))
      Relation.ReflTransGen group.Alters _ (.object [note, entry, runtime [level]]) :=
        .single (@Group.Alters.add group [] _ _ "note" _ (isInside_escapeAll _) (hname _)
          (by decide) .null)
      Relation.ReflTransGen group.Alters _ (.object [note, runtime [level], entry]) :=
        .single (.reorder (.cons _ (.swap _ _ _)))
  have hfits : Fits 127 settings.toJson := settings.fits_toJson 124
  have hrender : Spells 127 settings.toJson settings.render.toList := by
    rw [render, String.toList_ofList]
    exact (hfits.writes_pretty 0).spells
  have hchange : Spells 127 _ _ := (fits_of_varies hvaries hfits).writes_compact.spells
  exact (parse?_written.2 _ _ _ _ _ hrender hvaries hchange).trans (parse?_written.1 settings).1

end Settings

end Bundler

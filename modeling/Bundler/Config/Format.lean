import Bundler.Config
import Bundler.FileStore
import Bundler.Json.Reader
import Bundler.Report

/-!
# The configuration format

How settings and plans are written as JSON. A group of fields is an object, where
unknown names are passed over and a known name may stand once, or an array, where
the fields stand in their order and those at the end may be missing. A field that is
missing has its default; only an entry has none in an array, and none at all in a
plan.

* `Settings.toJson`, `Settings.ofJson?`: settings as a value, and back;
* `Settings.parse?`, `Plan.parse?`: settings and plans read from a text;
* `Settings.sample`: a configuration to start from;
* `Config.load`, `Config.find`: settings from a file that is named, or from the file of the usual
  name in a directory, if there is one.
-/

namespace Bundler

namespace Json

/-- A field of an object: none where the name does not occur, and nothing at all
    where it occurs twice. -/
def field? (name : String) (members : List (String × Json)) : Option (Option Json) :=
  match members.filter fun member => member.1 == name with
  | [] => some none
  | [(_, value)] => some (some value)
  | _ => none

/-- The members of an object with the texts of their names. -/
def named? (members : List (List Char × Json)) : Option (List (String × Json)) :=
  members.mapM fun (name, value) => (Text.unescape name).map fun text => (String.ofList text, value)

/-- The fields of a group, in the order of `names`, as far as they are there. -/
def fields? (names : List String) : Json → Option (List (Option Json))
  | .object members => do
    let members ← named? members
    names.mapM fun name => field? name members
  | .array elements =>
    if elements.length ≤ names.length then
      some (elements.map some ++ List.replicate (names.length - elements.length) none)
    else none
  | _ => none

/-- The truth value of a value, if it is one. -/
def bool? : Json → Option Bool
  | .bool value => some value
  | _ => none

/-- The texts of an array, if it is an array of texts. -/
def texts? : Json → Option (List String)
  | .array elements => elements.mapM text?
  | _ => none

/-- What `read` makes of a field, or `missing` where the field is missing. -/
def orElse {α : Type} (read : Json → Option α) (missing : α) : Option Json → Option α
  | some value => read value
  | none => some missing

end Json

namespace Output

/-- An output as a value. -/
def toJson (output : Output) : Json :=
  .object
    [Json.member "path" (.string output.directory),
     Json.member "filename" (.string output.fileName),
     Json.member "format" (.bool output.format)]

/-- The output that a value writes. -/
def ofJson? (value : Json) : Option Output := do
  match ← value.fields? ["path", "filename", "format"] with
  | [directory, fileName, format] =>
    return {
      directory := ← Json.orElse Json.text? Output.default.directory directory
      fileName := ← Json.orElse Json.text? Output.default.fileName fileName
      format := ← Json.orElse Json.bool? Output.default.format format }
  | _ => none

end Output

namespace Config

/-- The extensions that a value writes. -/
def extensions? (value : Json) : Option (List String) := do
  match ← value.fields? ["extensions"] with
  | [extensions] => Json.orElse Json.texts? Locator.defaultExtensions extensions
  | _ => none

/-- Whether a value asks for strict cycles. -/
def strictCycles? (value : Json) : Option Bool := do
  match ← value.fields? ["strictCycles"] with
  | [strictCycles] => Json.orElse Json.bool? false strictCycles
  | _ => none

/-- The names of the four groups of a configuration, in order. -/
def groupNames : List String :=
  ["entry", "output", "resolve", "runtime"]

end Config

namespace Settings

/-- Settings as a value. A missing entry is left out. -/
def toJson (settings : Settings) : Json :=
  .object
    ((settings.entry.toList.map fun entry => Json.member "entry" (.string entry)) ++
      [Json.member "output" settings.output.toJson,
       Json.member "resolve"
        (.object [Json.member "extensions" (.array (settings.extensions.map .string))]),
       Json.member "runtime" (.object [Json.member "strictCycles" (.bool settings.strictCycles)])])

/-- The entry that a value writes: `null` writes none. -/
def entry? : Json → Option (Option String)
  | .null => some none
  | value => value.text?.map some

/-- Whether an entry may be missing from a value: from an object, but not from an
    array. -/
def mayLackEntry : Json → Bool
  | .object _ => true
  | _ => false

/-- The settings that a value writes. -/
def ofJson? (value : Json) : Option Settings := do
  match ← value.fields? Config.groupNames with
  | [entry, output, resolve, runtime] =>
    if entry.isNone && !mayLackEntry value then none
    else
      return {
        entry := ← Json.orElse entry? none entry
        output := ← Json.orElse Output.ofJson? .default output
        extensions := ← Json.orElse Config.extensions? Locator.defaultExtensions resolve
        strictCycles := ← Json.orElse Config.strictCycles? false runtime }
  | _ => none

/-- The settings that a text writes. -/
def parse? (text : String) : Option Settings :=
  Json.parse? text.toList >>= ofJson?

/-- Settings as a text. -/
def render (settings : Settings) : String :=
  String.ofList (settings.toJson.pretty 0)

/-- A configuration to start from. -/
def sample : String :=
  render { Settings.default with entry := some "src/main.js" }

end Settings

namespace Plan

/-- The plan that a value writes. -/
def ofJson? (value : Json) : Option Plan := do
  match ← value.fields? Config.groupNames with
  | [some entry, output, resolve, runtime] =>
    return {
      entry := ← entry.text?
      output := ← Json.orElse Output.ofJson? .default output
      extensions := ← Json.orElse Config.extensions? Locator.defaultExtensions resolve
      strictCycles := ← Json.orElse Config.strictCycles? false runtime }
  | _ => none

/-- The plan that a text writes. -/
def parse? (text : String) : Option Plan :=
  Json.parse? text.toList >>= ofJson?

end Plan

namespace Config

/-! ### Files -/

variable {m : Type → Type} [Monad m] [FileStore m] [Reporter m]

/-- The settings in the file at `path`. -/
def load (path : String) : ExceptT Error m LoadedSettings := do
  Reporter.report (.loadingConfiguration path)
  match ← FileStore.read path with
  | .error fault => throw (.config (.unreadable path fault))
  | .ok text =>
    match Settings.parse? text with
    | none => throw (.config (.malformed path))
    | some settings =>
      Reporter.report .configurationLoaded
      return { settings, directory := (Path.parent? path).getD "" }

/-- The settings in the file of the usual name in a directory, if it is there. -/
def find (directory : String) : ExceptT Error m (Option LoadedSettings) := do
  let path := Path.join directory configFileName
  if ← FileStore.isFile path then some <$> load path
  else
    Reporter.report (.noConfiguration configFileName)
    return none

end Config

end Bundler

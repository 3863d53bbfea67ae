import Bundler.Error
import Bundler.Text.Basic

/-!
# Configurations

What a build is told: the entry, the output file, the extensions that are tried for
identifiers, and whether cyclic imports are an error while the bundle runs.

* `Settings`: what a configuration file says, where its entry may be missing;
* `Plan`: what a build needs to know;
* `merge`: the plan that a file and the command line make together.
-/

namespace Bundler

/-- Where the bundle goes and how it looks. -/
structure Output where
  /-- The directory of the bundle. -/
  directory : String
  /-- The name of the bundle in its directory. -/
  fileName : String
  /-- Whether the bundle is laid out before it is written. -/
  format : Bool
  deriving DecidableEq, Repr

namespace Output

/-- The output where nothing is said about it. -/
def default : Output :=
  { directory := "dist", fileName := "bundle.js", format := true }

/-- The path of the bundle. -/
def file (output : Output) : String :=
  Path.join output.directory output.fileName

end Output

/-- What a configuration file says. -/
structure Settings where
  /-- The module that the bundle starts from. -/
  entry : Option String
  /-- Where the bundle goes. -/
  output : Output
  /-- The endings tried, in order, for identifiers without one. -/
  extensions : List String
  /-- Whether the bundle refuses to read from a module that has not finished. -/
  strictCycles : Bool
  deriving DecidableEq, Repr

namespace Settings

/-- The settings where nothing is said. -/
def default : Settings :=
  { entry := none
    output := .default
    extensions := Locator.defaultExtensions
    strictCycles := false }

end Settings

/-- What a build needs to know. -/
structure Plan where
  /-- The module that the bundle starts from. -/
  entry : String
  /-- Where the bundle goes. -/
  output : Output
  /-- The endings tried, in order, for identifiers without one. -/
  extensions : List String
  /-- Whether the bundle refuses to read from a module that has not finished. -/
  strictCycles : Bool
  deriving DecidableEq, Repr

namespace Plan

/-- The plan for an entry about which nothing else is said. -/
def ofEntry (entry : String) : Plan :=
  { entry
    output := .default
    extensions := Locator.defaultExtensions
    strictCycles := false }

end Plan

/-- Settings with the directory from which their relative paths are seen. -/
structure LoadedSettings where
  /-- The settings. -/
  settings : Settings
  /-- The directory of the file that holds them. -/
  directory : String
  deriving DecidableEq, Repr

/-- What the command line says; each part takes the place of the file's. -/
structure Overrides where
  /-- The entry. -/
  entry : Option String
  /-- The directory of the bundle. -/
  directory : Option String
  /-- The name of the bundle in its directory. -/
  fileName : Option String
  deriving DecidableEq, Repr

namespace Config

/-- Whether a file name is no name: nothing but blanks. -/
def isBlankName (name : String) : Bool :=
  name.toList.all Text.isBlank

/-- Whether an extension is a dot and something after it. -/
def isExtension (extension : String) : Bool :=
  extension.toList.head? == some '.' && 2 ≤ extension.toList.length

/-- The fault of a plan, if it has one: the output name before the extensions. -/
def fault? (plan : Plan) : Option ConfigFault :=
  if isBlankName plan.output.fileName then some .blankFileName
  else (plan.extensions.find? fun ext => !isExtension ext).map .extension

/-- The plan that a file and the command line make together. Paths of the file are
    seen from its directory, paths of the command line are taken as they are. -/
def merge (loaded : Option LoadedSettings) (overrides : Overrides) : Except Error Plan :=
  let settings := (loaded.map LoadedSettings.settings).getD .default
  let directory := (loaded.map LoadedSettings.directory).getD ""
  match overrides.entry <|> settings.entry.map (Path.join directory) with
  | none => .error (.config .noEntry)
  | some entry =>
    let plan : Plan :=
      { entry
        output :=
          { directory := overrides.directory.getD (Path.join directory settings.output.directory)
            fileName := overrides.fileName.getD settings.output.fileName
            format := settings.output.format }
        extensions := settings.extensions
        strictCycles := settings.strictCycles }
    match fault? plan with
    | some fault => .error (.config fault)
    | none => .ok plan

end Config

end Bundler

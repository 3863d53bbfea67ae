import Bundler.Location
import Bundler.Specifier
import Bundler.Script.Basic

/-!
# Errors

Everything that can go wrong while a bundle is made, by its cause. The words for a
cause are in one place: `Error.message` is the one-line text, `Error.detailed` the
text that is shown to a person.
-/

namespace Bundler

/-- The calls that a file store answers. -/
inductive Access where
  /-- Asks whether a path leads to a file. -/
  | isFile
  /-- Reads the text of a file. -/
  | read
  /-- Writes the text of a file. -/
  | write
  /-- Makes a directory and those above it. -/
  | makeDirectory
  deriving DecidableEq, Repr

namespace Access

/-- The short name of a call. -/
def name : Access → String
  | .isFile => "is_file"
  | .read => "read"
  | .write => "write"
  | .makeDirectory => "mkdir"

end Access

/-- Why a call on a file store failed. -/
inductive FileFault where
  /-- Nothing is there. -/
  | notFound
  /-- Something is there already that is no directory. -/
  | alreadyExists
  /-- A directory is needed where something else is. -/
  | notDirectory
  /-- A file is needed where a directory is. -/
  | isDirectory
  /-- A name is longer than a file system allows. -/
  | nameTooLong
  /-- The file's bytes are no text. -/
  | notText
  /-- A name holds the character that ends names. -/
  | nulInName
  /-- The store was told to refuse this call. -/
  | refused (access : Access) (path : String)
  /-- The store holds no such file. -/
  | absent (path : String)
  /-- A fault in words of its own. -/
  | other (text : String)
  deriving DecidableEq, Repr

namespace FileFault

/-- The words for a fault. -/
def message : FileFault → String
  | .notFound => "No such file or directory (os error 2)"
  | .alreadyExists => "File exists (os error 17)"
  | .notDirectory => "Not a directory (os error 20)"
  | .isDirectory => "Is a directory (os error 21)"
  | .nameTooLong => "File name too long (os error 36)"
  | .notText => "stream did not contain valid UTF-8"
  | .nulInName => "file name contained an unexpected NUL byte"
  | .refused access path => "refused " ++ access.name ++ " " ++ path
  | .absent path => "no file " ++ path
  | .other text => text

end FileFault

namespace UnresolvedReason

/-- The words for why a specifier stands for no module. -/
def message : UnresolvedReason → String
  | .empty => "empty import specifier"
  | .bare => "bare module specifiers are not supported, import a relative path instead"
  | .noSuchFile path => "no such file: " ++ path
  | .other text => text

end UnresolvedReason

/-- Why a module cannot be part of a bundle. -/
inductive ModuleFault where
  /-- The file's extension is not that of a module. -/
  | extension (text : String)
  /-- A name that the loader needs is bound at the top of the module. -/
  | loaderName (name : String)
  /-- The module has a construct that the loader has no means for. -/
  | unsupported (construct : Unsupported)
  /-- The file cannot be read; the words say why. -/
  | unreadable (reason : String)
  /-- The source is not a module, or breaks a rule that is checked before it runs. -/
  | malformed (diagnostic : String)
  /-- A fault in words of its own. -/
  | other (text : String)
  deriving DecidableEq, Repr

namespace ModuleFault

/-- The words for why a module cannot be part of a bundle. -/
def message : ModuleFault → String
  | .extension text =>
    "unsupported module type '" ++ text ++ "', expected a .js, .mjs or .cjs file"
  | .loaderName name =>
    "top-level binding '" ++ name ++ "' clashes with the bundle loader, rename it"
  | .unsupported construct => construct.message
  | .unreadable reason => "cannot read module: " ++ reason
  | .malformed diagnostic => diagnostic
  | .other text => text

end ModuleFault

/-- A dependency whose target is no module of its graph. -/
structure MissingDependency where
  /-- The module that names the dependency. -/
  referrer : String
  /-- The specifier that it writes. -/
  specifier : String
  /-- The identifier that the specifier stands for. -/
  target : String
  deriving DecidableEq, Repr

/-- Why no bundle can be written for a graph. -/
inductive BundleFault where
  /-- The graph has no modules. -/
  | noModules
  /-- The entry is not a module of the graph. -/
  | foreignEntry (entry : String)
  /-- Dependencies lead out of the graph. -/
  | notClosed (missing : List MissingDependency)
  /-- A fault in words of its own. -/
  | other (text : String)
  deriving DecidableEq, Repr

namespace BundleFault

/-- The words for one dependency that leads out of the graph. -/
def describe (missing : MissingDependency) : String :=
  "'" ++ missing.specifier ++ "' from " ++ missing.referrer ++ " → " ++ missing.target

/-- The words for why no bundle can be written. -/
def message : BundleFault → String
  | .noModules => "module graph is empty"
  | .foreignEntry entry => "entry '" ++ entry ++ "' is not part of the module graph"
  | .notClosed missing => "module graph is not closed: " ++ ", ".intercalate (missing.map describe)
  | .other text => text

end BundleFault

/-- Why a text cannot be laid out as a script. -/
inductive LayoutFault where
  /-- The text is not a script, or breaks a rule that is checked before it runs. -/
  | malformed (diagnostic : String)
  /-- A fault in words of its own. -/
  | other (text : String)
  deriving DecidableEq, Repr

namespace LayoutFault

/-- The words for why a text cannot be laid out. -/
def message : LayoutFault → String
  | .malformed diagnostic => diagnostic
  | .other text => text

end LayoutFault

/-- The name of the configuration file that is looked for. -/
def configFileName : String := "minipack.config.json"

/-- Why there is no usable configuration. -/
inductive ConfigFault where
  /-- The file cannot be read. -/
  | unreadable (path : String) (fault : FileFault)
  /-- The file's text is not a configuration. -/
  | malformed (path : String)
  /-- Neither the file nor the command line names an entry. -/
  | noEntry
  /-- The name of the output file is blank. -/
  | blankFileName
  /-- An extension is not a dot and something after it. -/
  | extension (text : String)
  /-- A new configuration would replace an existing one. -/
  | occupied (path : String)
  /-- The example configuration cannot be written. -/
  | unwritable (path : String) (fault : FileFault)
  /-- A fault in words of its own. -/
  | other (text : String)
  deriving DecidableEq, Repr

namespace ConfigFault

/-- The words for why there is no usable configuration. -/
def message : ConfigFault → String
  | .unreadable path fault => "Cannot read " ++ path ++ ": " ++ fault.message
  | .malformed path => "Failed to parse " ++ path
  | .noEntry => "No entry given: pass --entry or set \"entry\" in " ++ configFileName
  | .blankFileName => "output.filename must not be empty"
  | .extension text =>
    "resolve.extensions entries must look like \".js\", got \"" ++ text ++ "\""
  | .occupied path => path ++ " already exists, use --force to replace it"
  | .unwritable path fault => "Failed to write " ++ path ++ ": " ++ fault.message
  | .other text => text

end ConfigFault

/-- What can go wrong while a bundle is made. -/
inductive Error where
  /-- A specifier stands for no module. -/
  | unresolved (specifier referrer : String) (reason : UnresolvedReason)
  /-- The entry leads to no file. -/
  | entryNotFound (path : String)
  /-- A module cannot be part of a bundle. -/
  | transform (module : String) (fault : ModuleFault) (location : Option Location)
  /-- No bundle can be written for the graph. -/
  | generate (fault : BundleFault)
  /-- The bundle cannot be laid out. -/
  | format (fault : LayoutFault)
  /-- The bundle cannot be put into its file. -/
  | emit (path : String) (fault : FileFault)
  /-- There is no usable configuration. -/
  | config (fault : ConfigFault)
  /-- A file store failed. -/
  | file (fault : FileFault)
  deriving DecidableEq, Repr

namespace Error

/-- The one-line words for an error. -/
def message : Error → String
  | .unresolved specifier referrer reason =>
    "Cannot resolve '" ++ specifier ++ "' imported from '" ++ referrer ++ "': " ++ reason.message
  | .entryNotFound path => "Entry module not found: " ++ path
  | .transform module fault _ => "Transform error in '" ++ module ++ "': " ++ fault.message
  | .generate fault => "Bundle generation error: " ++ fault.message
  | .format fault => "Format error: " ++ fault.message
  | .emit path fault => "Failed to write '" ++ path ++ "': " ++ fault.message
  | .config fault => "Configuration error: " ++ fault.message
  | .file fault => "IO error: " ++ fault.message

/-- The words for an error that are shown to a person. -/
def detailed : Error → String
  | .transform module fault location =>
    "❌ Transform Error: " ++ fault.message ++ "\n📦 Module: " ++ module ++
      (location.map Location.describe).getD ""
  | .unresolved specifier referrer reason =>
    "❌ Unresolved Import: '" ++ specifier ++ "'\n📦 Imported from: " ++ referrer ++ "\n💡 " ++
      reason.message
  | error => "❌ " ++ error.message

/-- The module that an error is about, if it is about one. -/
def module? : Error → Option String
  | .transform module _ _ => some module
  | .unresolved _ referrer _ => some referrer
  | _ => none

end Error

end Bundler

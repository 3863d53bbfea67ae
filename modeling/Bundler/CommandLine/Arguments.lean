import Bundler.Config

/-!
# Arguments

What the words after the program's name ask for. An option takes its value from its
own word (`--entry=a`, `-ea`, `-e=a`) or from the next one, unless that is an option
itself. An option may stand once. After `--` no word is an option.

* `Command.parse`: the command that a list of words asks for.
-/

namespace Bundler

/-- What the program is asked to do. -/
inductive Command where
  /-- Make a bundle. -/
  | build (config : Option String) (overrides : Overrides)
  /-- Write a configuration to start from, and replace an existing one if `force`. -/
  | init (force : Bool)
  deriving DecidableEq, Repr

/-- Why a list of words asks for no command. -/
inductive UsageFault where
  /-- A word is neither an option nor expected. -/
  | unknownArgument
  /-- A word stands where a command is expected, and names none. -/
  | invalidSubcommand
  /-- An option has no value, or one that it does not take. -/
  | invalidValue
  /-- An option stands twice. -/
  | argumentConflict
  /-- An option has a value and takes none. -/
  | tooManyValues
  /-- The words ask for help. -/
  | displayHelp
  /-- The words ask for the program's version. -/
  | displayVersion
  /-- No command is asked for. -/
  | displayHelpOnMissingArgumentOrSubcommand
  deriving DecidableEq, Repr

namespace UsageFault

/-- The name of a fault. -/
def name : UsageFault → String
  | .unknownArgument => "UnknownArgument"
  | .invalidSubcommand => "InvalidSubcommand"
  | .invalidValue => "InvalidValue"
  | .argumentConflict => "ArgumentConflict"
  | .tooManyValues => "TooManyValues"
  | .displayHelp => "DisplayHelp"
  | .displayVersion => "DisplayVersion"
  | .displayHelpOnMissingArgumentOrSubcommand => "DisplayHelpOnMissingArgumentOrSubcommand"

end UsageFault

namespace Command

/-- An option of a command: one that takes a value, or one that does not. -/
inductive Setting where
  /-- The configuration file. -/
  | config
  /-- The entry. -/
  | entry
  /-- The directory of the bundle. -/
  | outdir
  /-- The name of the bundle in its directory. -/
  | filename
  /-- Whether to replace an existing configuration. -/
  | force
  /-- A question for help. -/
  | help
  /-- A question for the program's version. -/
  | version
  deriving DecidableEq, Repr

namespace Setting

/-- Whether an option takes a value. -/
def takesValue : Setting → Bool
  | .config | .entry | .outdir | .filename => true
  | _ => false

/-- Whether an option takes a value: all but a file name must not be empty. -/
def accepts (setting : Setting) (value : String) : Bool :=
  setting == .filename || !value.isEmpty

end Setting

/-- The options of a command: their long names, their letters, and what they set. -/
abbrev Options := List (String × Option Char × Setting)

/-- The options of the program itself. -/
def programOptions : Options :=
  [("help", some 'h', .help), ("version", some 'V', .version)]

/-- The options of `build`. -/
def buildOptions : Options :=
  [("config", some 'c', .config), ("entry", some 'e', .entry), ("outdir", some 'o', .outdir),
    ("filename", some 'f', .filename), ("help", some 'h', .help)]

/-- The options of `init`. -/
def initOptions : Options :=
  [("force", none, .force), ("help", some 'h', .help)]

/-- The option with a long name. -/
def long? (options : Options) (name : List Char) : Option Setting :=
  (options.find? fun option => option.1.toList == name).map fun option => option.2.2

/-- The option with a letter. -/
def short? (options : Options) (letter : Char) : Option Setting :=
  (options.find? fun option => option.2.1 == some letter).map fun option => option.2.2

/-- What one word is. -/
inductive Word where
  /-- The word after which no word is an option. -/
  | escape
  /-- Options, each with its value if the word holds one. -/
  | options (settings : List (Setting × Option String))
  /-- A flag that is given a value, after other flags. -/
  | overfull (settings : List (Setting × Option String))
  /-- A word like an option that is none, after options. -/
  | unknown (settings : List (Setting × Option String))
  /-- Any other word. -/
  | plain (text : String)

/-- The value of an option's letter: the rest of its word, without a leading `=`. -/
def attached? : List Char → Option String
  | [] => none
  | '=' :: value => some (String.ofList value)
  | value => some (String.ofList value)

/-- Reads letters, each an option without a value up to the first with one. -/
def readLetters (options : Options) : List Char → List (Setting × Option String) → Word
  | [], settings => .options settings.reverse
  | letter :: rest, settings =>
    match short? options letter with
    | none => .unknown settings.reverse
    | some setting =>
      if setting.takesValue then .options ((setting, attached? rest) :: settings).reverse
      else readLetters options rest ((setting, none) :: settings)

/-- Reads a word where options may stand. -/
def readWord (options : Options) (word : String) : Word :=
  match word.toList with
  | ['-', '-'] => .escape
  | '-' :: '-' :: text =>
    let name := text.takeWhile (· != '=')
    let value? := match text.dropWhile (· != '=') with
      | '=' :: value => some (String.ofList value)
      | _ => none
    match long? options name with
    | none => .unknown []
    | some setting =>
      if value?.isSome && !setting.takesValue then .overfull [] else .options [(setting, value?)]
  | '-' :: letter :: letters => readLetters options (letter :: letters) []
  | _ => .plain word

/-- The options that were set so far, and the one that waits for its value in the next
    word, if one does. -/
structure Settings where
  /-- The options with their values. -/
  values : List (Setting × String)
  /-- The option that waits for its value, with the value once it has come. -/
  pending : Option (Setting × Option String)

namespace Settings

/-- Sets an option to a value: an option may stand once, and must take the value. -/
def set (settings : Settings) (setting : Setting) (value : String) : Except UsageFault Settings :=
  if (settings.values.map Prod.fst).contains setting then .error .argumentConflict
  else if !setting.accepts value && setting.takesValue then .error .invalidValue
  else .ok { settings with values := settings.values ++ [(setting, value)] }

/-- Ends the wait for a value. -/
def settle (settings : Settings) : Except UsageFault Settings :=
  match settings.pending with
  | none => .ok settings
  | some (_, none) => .error .invalidValue
  | some (setting, some value) => { settings with pending := none }.set setting value

/-- Takes an option, with its value if the option's word holds one. -/
def take (settings : Settings) (option : Setting × Option String) : Except UsageFault Settings := do
  let settings ← settings.settle
  match option with
  | (.help, _) => .error .displayHelp
  | (.version, _) => .error .displayVersion
  | (.force, _) => settings.set .force ""
  | (setting, some value) => settings.set setting value
  | (setting, none) => .ok { settings with pending := some (setting, none) }

/-- Takes options one after another. -/
def takeAll (settings : Settings) (options : List (Setting × Option String)) :
    Except UsageFault Settings :=
  options.foldlM take settings

/-- The value of an option. -/
def value? (settings : Settings) (setting : Setting) : Option String :=
  settings.values.lookup setting

end Settings

/-- Reads the words of a command that takes options only. -/
def readOptions (options : Options) : List String → Settings → Except UsageFault Settings
  | [], settings => settings.settle
  | word :: rest, settings =>
    match readWord options word with
    | .escape => if rest.isEmpty then settings.settle else .error .unknownArgument
    | .options found => do readOptions options rest (← settings.takeAll found)
    | .overfull found => do
      let _ ← settings.takeAll found
      .error .tooManyValues
    | .unknown found => do
      let _ ← if found.isEmpty then .ok settings else settings.takeAll found
      .error .unknownArgument
    | .plain value =>
      match settings.pending with
      | some (setting, none) =>
        readOptions options rest { settings with pending := some (setting, some value) }
      | _ => .error .unknownArgument

/-- The names of the commands, the question for help among them. -/
def commandNames : List String := ["build", "init", "help"]

/-- Reads the names after `help`: each is a command of the one before, and only `help`
    has commands itself. -/
def readHelp : List String → UsageFault
  | [] => .displayHelp
  | name :: rest =>
    if name == "help" then readHelp rest
    else if commandNames.contains name && rest.isEmpty then .displayHelp
    else .invalidSubcommand

/-- Reads the words after the program's name. -/
def parse (words : List String) : Except UsageFault Command :=
  match words with
  | [] => .error .displayHelpOnMissingArgumentOrSubcommand
  | word :: rest =>
    match readWord programOptions word with
    | .escape =>
      match rest with
      | [] => .error .displayHelpOnMissingArgumentOrSubcommand
      | name :: _ =>
        if commandNames.contains name then .error .unknownArgument else .error .invalidSubcommand
    | .options found => do
      -- Every option of the program itself ends the reading.
      let _ ← (⟨[], none⟩ : Settings).takeAll found
      .error .displayHelp
    | .overfull _ => .error .tooManyValues
    | .unknown found => do
      let _ ← (⟨[], none⟩ : Settings).takeAll found
      .error .unknownArgument
    | .plain "build" => do
      let settings ← readOptions buildOptions rest ⟨[], none⟩
      return .build (settings.value? .config)
        { entry := settings.value? .entry
          directory := settings.value? .outdir
          fileName := settings.value? .filename }
    | .plain "init" => do
      let settings ← readOptions initOptions rest ⟨[], none⟩
      return .init (settings.value? .force).isSome
    | .plain "help" => .error (readHelp rest)
    | .plain _ => .error .invalidSubcommand

end Command

end Bundler

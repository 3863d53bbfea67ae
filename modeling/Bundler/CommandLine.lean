import Bundler.Build
import Bundler.CommandLine.Arguments
import Bundler.Config.Format
import Bundler.Text.Basic

/-!
# The command line

What the program does with the words it is called with, and what it tells a person:
a banner and a summary for a build that succeeds, the error for one that does not.

* `Command.perform`: carries out a command;
* `runProgram`: the program as a whole, up to its exit code.
-/

namespace Bundler

/-- A monad in which lines can be shown to a person. -/
class Console (m : Type → Type) where
  /-- Shows a line. -/
  print : String → m Unit
  /-- Shows a line that tells of a failure. -/
  complain : String → m Unit

/-- Actions that may fail show what other actions show. -/
instance {m : Type → Type} {ε : Type} [Monad m] [Console m] : Console (ExceptT ε m) where
  print line := ExceptT.lift (Console.print line)
  complain line := ExceptT.lift (Console.complain line)

/-- Actions that may go on for ever show what others show. -/
instance {σ : Type} [Console (StateM σ)] : Console (Run σ) where
  print line := .ofEnding (Console.print line)
  complain line := .ofEnding (Console.complain line)

/-- The lines above what a build tells. -/
def banner : List String :=
  ["", "  MINIPACK 0.1.0", ""]

/-- The lines that tell of a build that succeeded. -/
def Receipt.summary (receipt : Receipt) : List String :=
  ["",
    "  " ++ receipt.output.path ++ " (" ++ Text.sizeText receipt.output.size ++ ") " ++
      Nat.repr receipt.modules ++ " modules",
    "",
    "  ✓ built in " ++ receipt.time.milliseconds]

/-- The lines that tell of a failure. -/
def Error.lines (error : Error) : List String :=
  ["", "  ✗ build failed"] ++
    (Text.lines error.detailed.toList).map fun line => "  " ++ String.ofList line

/-- The lines that say how the program is called. -/
def usage : List String :=
  ["Usage: minipack <COMMAND>",
    "",
    "Commands:",
    "  build  Bundle an entry module and everything it imports",
    "  init   Write an example minipack.config.json to the current directory",
    "  help   Print this message"]

section

variable {m : Type → Type} [Monad m] [FileStore m] [Reporter m] [MonadIter m] [Console m]

/-- Makes the bundle that a configuration file and the command line ask for. -/
def Command.performBuild (transform : Transform m) (format : Formatter)
    (config : Option String) (overrides : Overrides) : ExceptT Error m Unit := do
  let loaded ← match config with
    | some path => some <$> Config.load path
    | none => Config.find "."
  let plan ← ExceptT.mk (pure (Config.merge loaded overrides))
  banner.forM Console.print
  let receipt ← ExceptT.mk (plan.build transform format)
  receipt.summary.forM Console.print

/-- Writes a configuration to start from into the current directory. -/
def Command.performInit (force : Bool) : ExceptT Error m Unit := do
  let path := Path.join "." configFileName
  if (← FileStore.isTaken path) && !force then throw (.config (.occupied path))
  match ← FileStore.write path Settings.sample with
  | .error fault => throw (.config (.unwritable path fault))
  | .ok () => Reporter.report (.configurationWritten path)

/-- Carries out a command. -/
def Command.perform (transform : Transform m) (format : Formatter) :
    Command → ExceptT Error m Unit
  | .build config overrides => performBuild transform format config overrides
  | .init force => performInit force

/-- Answers words that ask for no command. -/
def UsageFault.answer (fault : UsageFault) : m Nat :=
  match fault with
  | .displayHelp => do
    usage.forM Console.print
    return 0
  | .displayVersion => do
    Console.print "minipack 0.1.0"
    return 0
  | _ => do
    (("error: " ++ fault.name) :: "" :: usage).forM Console.complain
    return 2

/-- Does what the words after the program's name ask for, and gives the exit code. -/
def runProgram (transform : Transform m) (format : Formatter) (words : List String) : m Nat := do
  match Command.parse words with
  | .error fault => fault.answer
  | .ok command =>
    match ← (command.perform transform format : ExceptT Error m Unit).run with
    | .ok () => return 0
    | .error error =>
      error.lines.forM Console.complain
      return 1

end

end Bundler

import Bundler.Run
import Bundler.Text.Basic

/-!
# Reports

What a build tells about its progress. An event has a level and a text; who listens
decides from which level on it is told (see `Bundler.Report.Filter`).

* `Event.level`, `Event.text`, `Event.line`: how an event is told;
* `Reporter`: a monad that takes events and knows the time;
* `timed`: an action that is told when it starts and when it ends.
-/

namespace Bundler

/-- How much an event matters, the most first. -/
inductive Level where
  /-- Something failed. -/
  | error
  /-- Something may be wrong. -/
  | warn
  /-- What a person wants to follow. -/
  | info
  /-- What explains the course of a build. -/
  | debug
  /-- Everything else. -/
  | trace
  deriving DecidableEq, Repr

namespace Level

/-- The rank of a level: the greater, the less the event matters. -/
def rank : Level → Nat
  | .error => 1
  | .warn => 2
  | .info => 3
  | .debug => 4
  | .trace => 5

/-- The name of a level. -/
def name : Level → String
  | .error => "ERROR"
  | .warn => "WARN"
  | .info => "INFO"
  | .debug => "DEBUG"
  | .trace => "TRACE"

end Level

/-- A stretch of time in nanoseconds. -/
structure Duration where
  /-- The number of nanoseconds. -/
  nanoseconds : Nat
  deriving DecidableEq, Repr

namespace Duration

/-- A quotient with two places. -/
def hundredths (num den : Nat) : String :=
  let value := Text.roundHalfEven (num * 100) den
  Nat.repr (value / 100) ++ "." ++ Text.twoDigits (value % 100)

/-- The time in the greatest unit of which it has at least one, with two places. -/
def text (time : Duration) : String :=
  if Nat.pow 10 9 ≤ time.nanoseconds then hundredths time.nanoseconds (Nat.pow 10 9) ++ "s"
  else if Nat.pow 10 6 ≤ time.nanoseconds then hundredths time.nanoseconds (Nat.pow 10 6) ++ "ms"
  else if Nat.pow 10 3 ≤ time.nanoseconds then hundredths time.nanoseconds (Nat.pow 10 3) ++ "µs"
  else hundredths time.nanoseconds 1 ++ "ns"

/-- The time in whole milliseconds. -/
def milliseconds (time : Duration) : String :=
  Nat.repr (Text.roundHalfEven time.nanoseconds (Nat.pow 10 6)) ++ "ms"

end Duration

/-- What happens in a build. -/
inductive Event where
  /-- There is no configuration file. -/
  | noConfiguration (name : String)
  /-- A configuration file is about to be read. -/
  | loadingConfiguration (path : String)
  /-- A configuration file was read. -/
  | configurationLoaded
  /-- A configuration file was written. -/
  | configurationWritten (path : String)
  /-- An action starts. -/
  | started (action : String)
  /-- An action ended. -/
  | completed (action : String) (time : Duration)
  /-- A build begins. -/
  | build
  /-- The entry of the build. -/
  | entry (path : String)
  /-- The file that the bundle goes to. -/
  | output (path : String)
  /-- A module is about to be read. -/
  | visiting (id : String)
  /-- A specifier stands for a file. -/
  | resolved (specifier referrer id : String)
  /-- The graph is complete. -/
  | closed (modules : Nat)
  /-- The text of the bundle is there. -/
  | generated (modules bytes : Nat)
  /-- The bundle was written. -/
  | written (path : String) (bytes : Nat)
  /-- The build is done. -/
  | bundled (modules : Nat) (path : String) (time : Duration)
  deriving DecidableEq, Repr

namespace Event

/-- How much an event matters. -/
def level : Event → Level
  | .configurationWritten _ | .build | .entry _ | .output _ | .closed _ | .bundled .. => .info
  | _ => .debug

/-- The text of an event. -/
def text : Event → String
  | .noConfiguration name => "No " ++ name ++ " found, using defaults"
  | .loadingConfiguration path => "Loading config from " ++ path
  | .configurationLoaded => "✅ Config file loaded successfully"
  | .configurationWritten path => "📝 Wrote " ++ path
  | .started action => "⏱️  Starting: " ++ action
  | .completed action time => "⏱️  Completed: " ++ action ++ " in " ++ time.text
  | .build => "📦 minipack build"
  | .entry path => "📁 Entry: " ++ path
  | .output path => "🎯 Output: " ++ path
  | .visiting id => "🔍 Transforming module: " ++ id
  | .resolved specifier referrer id => "🔗 '" ++ specifier ++ "' from " ++ referrer ++ " → " ++ id
  | .closed modules => "🕸️  Dependency graph closed: " ++ Nat.repr modules ++ " modules"
  | .generated modules bytes =>
    "Generated bundle for " ++ Nat.repr modules ++ " modules (" ++ Nat.repr bytes ++ " bytes)"
  | .written path bytes => "Wrote " ++ path ++ " (" ++ Text.sizeText bytes ++ ")"
  | .bundled modules path time =>
    "✅ Bundled " ++ Nat.repr modules ++ " modules into " ++ path ++ " in " ++ time.text

/-- The line that tells of an event. -/
def line (event : Event) : String :=
  event.level.name ++ " " ++ event.text

end Event

/-- A monad that takes events and knows the time. -/
class Reporter (m : Type → Type) where
  /-- Takes an event. -/
  report : Event → m Unit
  /-- The time since a fixed moment. -/
  now : m Duration

/-- Actions that may fail tell those who listen to other actions. -/
instance {m : Type → Type} {ε : Type} [Monad m] [Reporter m] : Reporter (ExceptT ε m) where
  report event := ExceptT.lift (Reporter.report event)
  now := ExceptT.lift Reporter.now

/-- Actions that may go on for ever tell those who listen to others. -/
instance {σ : Type} [Reporter (StateM σ)] : Reporter (Run σ) where
  report event := .ofEnding (Reporter.report event)
  now := .ofEnding Reporter.now

section

variable {m : Type → Type} [Monad m] [Reporter m]

/-- The time since `start`. -/
def elapsedSince (start : Duration) : m Duration := do
  let time ← Reporter.now
  return ⟨time.nanoseconds - start.nanoseconds⟩

/-- Tells that an action starts, performs it from its starting time, and tells that it
    ended, whatever came of it. -/
def timed {α : Type} (action : String) (perform : Duration → m α) : m α := do
  Reporter.report (.started action)
  let start ← Reporter.now
  let result ← perform start
  Reporter.report (.completed action (← elapsedSince start))
  return result

end

end Bundler

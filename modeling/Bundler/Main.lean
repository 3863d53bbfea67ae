import Bundler.Lowering
import Bundler.Script.Layout
import Bundler.Session

/-!
# The program

The outer layer: the program run on the files of a machine, with its streams, its clock, and the
filter for events that its environment sets.
-/

namespace Bundler

namespace FileFault

/-- The fault that an error number of the system stands for, in the system's words if it has no
    place of its own. -/
def ofCode (code : UInt32) (details : String) : FileFault :=
  match code.toNat with
  | 2 => .notFound
  | 17 => .alreadyExists
  | 20 => .notDirectory
  | 21 => .isDirectory
  | 36 => .nameTooLong
  | code => .other (details ++ " (os error " ++ Nat.repr code ++ ")")

/-- The fault that an error of the system stands for. -/
def ofSystem : IO.Error → FileFault
  | .noFileOrDirectory _ code details
  | .alreadyExists _ code details
  | .inappropriateType _ code details
  | .invalidArgument _ code details
  | .permissionDenied _ code details => ofCode code details
  | error => .other (toString error)

end FileFault

/-- Actions on a machine, which know what events to tell. -/
abbrev Machine := ReaderT Filter IO

namespace Machine

/-- An action of the system that may fail, with the fault it meets. -/
def attempt {α : Type} (act : IO α) : IO (Except FileFault α) := do
  match ← act.toBaseIO with
  | .ok value => return .ok value
  | .error error => return .error (FileFault.ofSystem error)

/-- Opens what a path leads to for reading, if its owner lets the program do so. -/
def opened (path : String) : IO (Except IO.Error IO.FS.Handle) :=
  (IO.FS.Handle.mk path .read).toBaseIO

/-- Whether a path leads to anything. -/
def isTaken (path : String) : IO Bool := do
  match ← opened path with
  | .ok _ | .error (.permissionDenied ..) => return true
  | .error _ => return false

/-- Whether a path leads to a file: a directory can be opened, but gives no bytes. -/
def isFile (path : String) : IO Bool := do
  match ← opened path with
  | .ok handle => return (← (handle.read 1).toBaseIO).isOk
  | .error (.permissionDenied ..) => return true
  | .error _ => return false

/-- The text of a file. -/
def read (path : String) : IO (Except FileFault String) := do
  match ← attempt (IO.FS.readBinFile path) with
  | .ok bytes =>
    match String.fromUTF8? bytes with
    | some text => return .ok text
    | none => return .error .notText
  | .error fault => return .error fault

/-- Makes a directory and those above it. The empty path names no directory that is missing. -/
def makeDirectory (path : String) : IO (Except FileFault Unit) :=
  if path.isEmpty then return .ok () else attempt (IO.FS.createDirAll path)

/-- Writes a file, in a directory that is made if it is missing. -/
def write (path text : String) : IO (Except FileFault Unit) := do
  match ← makeDirectory ((Path.parent? path).getD "") with
  | .ok () => attempt (IO.FS.writeFile path text)
  | .error fault => return .error fault

instance : FileStore Machine where
  isFile path := isFile path
  isTaken path := isTaken path
  read path := read path
  write path text := write path text
  makeDirectory path := makeDirectory path

/-- Repeats an action until it gives a result. -/
def iterate {α β : Type} (act : α → Machine (α ⊕ β)) (a : α) : Machine β := do
  match ← act a with
  | .inl next => by apply iterate; exact act; exact next
  | .inr result => return result
partial_fixpoint

instance : MonadIter Machine where
  iterate := iterate

instance : Reporter Machine where
  report event := do
    if (← ReaderT.read).allows event.level then IO.println event.line
  now := return ⟨← IO.monoNanosNow⟩

instance : Console Machine where
  print line := IO.println line
  complain line := IO.eprintln line

end Machine

end Bundler

/-- Runs the program with the words after its name. -/
def main (words : List String) : IO UInt32 := do
  let filter := Bundler.Filter.ofSetting (← IO.getEnv "RUST_LOG")
  let code ←
    (Bundler.runProgram Bundler.lower.told Bundler.Script.format words : Bundler.Machine Nat).run filter
  return UInt32.ofNat code

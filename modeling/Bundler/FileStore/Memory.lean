import Bundler.FileStore
import Bundler.Report

/-!
# Files in memory

A store that is a value: paths with the texts of their files, compared as exact
texts. It refuses the calls that it is told to refuse, and keeps a journal of all
calls. Directories leave no trace in it. Nobody listens to events there, and no time passes.
-/

namespace Bundler

/-- Files in memory, with the calls that are refused and those that were made. -/
structure Memory where
  /-- The paths with the texts of their files. -/
  files : List (String × String)
  /-- The paths whose reading is refused. -/
  refusedReads : List String
  /-- The paths to which writing is refused. -/
  refusedWrites : List String
  /-- The paths whose making as a directory is refused. -/
  refusedDirectories : List String
  /-- The calls made so far, the last one first, refused ones included. -/
  journal : List (Access × String)
  deriving DecidableEq, Repr

namespace Memory

/-- Whether a path is that of a file. -/
def hasFile (memory : Memory) (path : String) : Bool :=
  (memory.files.map Prod.fst).contains path

/-- The text of a file. -/
def text? (memory : Memory) (path : String) : Option String :=
  memory.files.lookup path

/-- Puts a text into a file, in the place of its old text if it has one. -/
def put (memory : Memory) (path text : String) : Memory :=
  if memory.hasFile path then
    { memory with
      files := memory.files.map fun file => if file.1 = path then (path, text) else file }
  else { memory with files := memory.files ++ [(path, text)] }

/-- Takes a file away. -/
def remove (memory : Memory) (path : String) : Memory :=
  { memory with files := memory.files.filter fun file => file.1 != path }

/-- Notes a call. -/
def note (memory : Memory) (access : Access) (path : String) : Memory :=
  { memory with journal := (access, path) :: memory.journal }

/-- What reading a path gives. -/
def readResult (memory : Memory) (path : String) : Except FileFault String :=
  if memory.refusedReads.contains path then .error (.refused .read path)
  else
    match memory.text? path with
    | some text => .ok text
    | none => .error (.absent path)

/-- Writes a file, unless that is refused. -/
def writeFile (memory : Memory) (path text : String) : Except FileFault Unit × Memory :=
  if memory.refusedWrites.contains path then (.error (.refused .write path), memory)
  else (.ok (), memory.put path text)

/-- What making a directory gives. -/
def directoryResult (memory : Memory) (path : String) : Except FileFault Unit :=
  if memory.refusedDirectories.contains path then .error (.refused .makeDirectory path) else .ok ()

instance : FileStore (StateM Memory) where
  isFile path := fun memory => (memory.hasFile path, memory.note .isFile path)
  isTaken path := fun memory => (memory.hasFile path, memory)
  read path := fun memory => (memory.readResult path, memory.note .read path)
  write path text := fun memory => (memory.note .write path).writeFile path text
  makeDirectory path := fun memory => (memory.directoryResult path, memory.note .makeDirectory path)

instance : Reporter (StateM Memory) where
  report _ := fun memory => ((), memory)
  now := fun memory => (⟨0⟩, memory)

end Memory

end Bundler

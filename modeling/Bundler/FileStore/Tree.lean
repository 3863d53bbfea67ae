import Bundler.FileStore
import Bundler.Path

/-!
# Directory trees

A store that is a value and has directories, as a disk has them. A program runs in a directory of
the tree, and the system may refuse it anything, as it does where it lacks a permission or the
disk is full. An absolute path is followed segment by segment from the root of the tree, any other
from the current directory. A segment is looked up in a directory that exists, `..` above the root
stays there, and an empty segment or `.` stays where it is. There are no links.

* `Process`: where a program runs, and what it is refused;
* `Tree.follow`: where a path leads, or which fault it meets on the way;
* `Tree.makeDirectories`, `Tree.writeFile`, `Tree.textAt`: the calls of a store.
-/

namespace Bundler

/-- A place in a tree: the names that lead to it, the last one first. -/
abbrev Place := List String

/-- What may be at a place. -/
inductive Entry where
  /-- A directory. -/
  | directory
  /-- A file with its text; none where its bytes are no text. -/
  | file (text : Option String)
  deriving DecidableEq, Repr

/-- Files and directories below a root. -/
structure Tree where
  /-- What is where, the root left out. -/
  entries : List (Place × Entry)
  deriving DecidableEq, Repr

/-- What a system knows of a program that runs: its current directory, and the faults with which its
    calls are refused. Whether a call is refused may depend on the whole tree, as on a disk that is
    full; whether a directory may be searched does not. -/
structure Process where
  /-- The current directory. -/
  directory : Place
  /-- Looking something up in a directory. -/
  search : Place → Option FileFault
  /-- Reading the file at a place. -/
  read : Tree → Place → Option FileFault
  /-- Making a directory at a place. -/
  make : Tree → Place → Option FileFault
  /-- Writing a text into the file at a place. -/
  write : Tree → Place → String → Option FileFault

/-- A program that runs in the root and is refused nothing. -/
def Process.free : Process where
  directory := []
  search _ := none
  read _ _ := none
  make _ _ := none
  write _ _ _ := none

namespace Tree

/-- The tree with nothing below its root. -/
def empty : Tree := ⟨[]⟩

/-- What is at a place. -/
def entry? (tree : Tree) : Place → Option Entry
  | [] => some .directory
  | place => tree.entries.lookup place

/-- Whether a directory is at a place. -/
def hasDirectory (tree : Tree) (place : Place) : Bool :=
  tree.entry? place == some .directory

/-- Puts something at a place, in the place of what was there. -/
def put (tree : Tree) (place : Place) (entry : Entry) : Tree :=
  if (tree.entries.map Prod.fst).contains place then
    ⟨tree.entries.map fun old => if old.1 = place then (place, entry) else old⟩
  else ⟨tree.entries ++ [(place, entry)]⟩

/-- The greatest number of bytes that a name may take. -/
def maxName : Nat := 255

/-- The greatest number of bytes that a path may take. -/
def maxPath : Nat := 4095

/-- Follows segments from a place. Each is looked up in a directory that exists and may be searched;
    the last may name nothing yet. -/
def follow (tree : Tree) (process : Process) (place : Place) :
    List String → Except FileFault Place
  | [] => .ok place
  | segment :: rest =>
    match tree.entry? place with
    | none => .error .notFound
    | some (.file _) => .error .notDirectory
    | some .directory =>
      if segment.isEmpty then follow tree process place rest
      else
        match process.search place with
        | some fault => .error fault
        | none =>
          if segment == "." then follow tree process place rest
          else if segment == ".." then follow tree process place.tail rest
          else if maxName < segment.utf8ByteSize then .error .nameTooLong
          else follow tree process (segment :: place) rest

/-- The segments of a path that a call may name: no empty path, none with a NUL in it,
    and none that is too long. -/
def segments? (path : String) : Except FileFault (List String) :=
  if path.toList.contains '\x00' then .error .nulInName
  else if path.isEmpty then .error .notFound
  else if maxPath < path.utf8ByteSize then .error .nameTooLong
  else .ok ((Path.segments path.toList).map String.ofList)

/-- The place from which a path is followed. -/
def origin (process : Process) (path : String) : Place :=
  if Path.isAbsolute path then [] else process.directory

variable (tree : Tree) (process : Process)

/-- The place that a path leads to, which may be empty. -/
def place? (path : String) : Except FileFault Place := do
  tree.follow process (origin process path) (← segments? path)

/-- What a path leads to. -/
def find? (path : String) : Except FileFault Entry := do
  let place ← tree.place? process path
  match tree.entry? place with
  | some entry => .ok entry
  | none => .error .notFound

/-- The text of the file that a path leads to. -/
def textAt (path : String) : Except FileFault String := do
  let place ← tree.place? process path
  match process.read tree place with
  | some fault => .error fault
  | none =>
    match tree.entry? place with
    | none => .error .notFound
    | some .directory => .error .isDirectory
    | some (.file none) => .error .notText
    | some (.file (some text)) => .ok text

/-- Whether a path leads to a directory. -/
def isDirectory (path : String) : Bool :=
  match tree.find? process path with
  | .ok .directory => true
  | _ => false

/-- Makes the directory that a path leads to in a directory that exists. -/
def makeOne (path : String) : Except FileFault Tree := do
  let place ← tree.place? process path
  match tree.entry? place with
  | some _ => .error .alreadyExists
  | none =>
    match process.make tree place with
    | some fault => .error fault
    | none =>
      if tree.hasDirectory place.tail then .ok (tree.put place .directory) else .error .notFound

/-- Makes the directory that a path leads to, and before it those on the way. The
    number bounds how many there are. Directories made on the way to a fault stay. -/
def makeAll (process : Process) : Nat → Tree → String → Except FileFault Unit × Tree
  | 0, tree, _ => (.error .notFound, tree)
  | fuel + 1, tree, path =>
    if path.isEmpty then (.ok (), tree)
    else
      match tree.makeOne process path with
      | .ok made => (.ok (), made)
      | .error .notFound =>
        match Path.parent? path with
        | none => (.error .notFound, tree)
        | some parent =>
          match makeAll process fuel tree parent with
          | (.error fault, tree) => (.error fault, tree)
          | (.ok (), tree) =>
            match tree.makeOne process path with
            | .ok made => (.ok (), made)
            | .error fault =>
              if tree.isDirectory process path then (.ok (), tree) else (.error fault, tree)
      | .error fault =>
        if tree.isDirectory process path then (.ok (), tree) else (.error fault, tree)

/-- Makes the directory that a path leads to, and before it those on the way. A path
    has no more directories on it than it has characters. -/
def makeDirectories (path : String) : Except FileFault Unit × Tree :=
  makeAll process (path.length + 1) tree path

/-- Gives the file that a path leads to a text, in a directory that exists. A path that
    ends in a separator asks for a directory, whatever is there. -/
def writeOne (path text : String) : Except FileFault Tree := do
  let segments ← segments? path
  let named := (segments.reverse.dropWhile String.isEmpty).reverse
  if named.length < segments.length then
    let _ ← tree.follow process (origin process path) (named.dropLast ++ [""])
    .error .isDirectory
  else
    let place ← tree.follow process (origin process path) segments
    match process.write tree place text with
    | some fault => .error fault
    | none =>
      match tree.entry? place with
      | some .directory => .error .isDirectory
      | some (.file _) => .ok (tree.put place (.file (some text)))
      | none =>
        if tree.hasDirectory place.tail then .ok (tree.put place (.file (some text)))
        else .error .notFound

/-- Gives the file that a path leads to a text, and makes the directories above it. -/
def writeFile (path text : String) : Except FileFault Unit × Tree :=
  match tree.makeDirectories process ((Path.parent? path).getD "") with
  | (.error fault, tree) => (.error fault, tree)
  | (.ok (), tree) =>
    match tree.writeOne process path text with
    | .error fault => (.error fault, tree)
    | .ok tree => (.ok (), tree)

/-- Whether a path leads to a file. -/
def isFile (path : String) : Bool :=
  match tree.find? process path with
  | .ok (.file _) => true
  | _ => false

/-- Whether a path leads to anything. -/
def isTaken (path : String) : Bool :=
  (tree.find? process path).isOk

end Tree

end Bundler

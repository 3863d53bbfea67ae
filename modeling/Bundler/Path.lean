/-!
# Paths

File paths as texts, read lexically: the file system is never asked. Segments are
divided by `/`; an empty segment and a `.` segment name nothing, except that a `.`
which opens a relative path stands for the directory the path starts from.

* `Path.parent?`: the path without its last component;
* `Path.join`: a path seen from a directory;
* `Path.stem?`, `Path.extension?`: the two parts of a file's name.
-/

namespace Bundler.Path

/-- The pieces of a text between the characters for which `isSeparator` holds; a
    text without one is a single piece. -/
def pieces (isSeparator : Char → Bool) : List Char → List (List Char)
  | [] => [[]]
  | c :: rest =>
    if isSeparator c then [] :: pieces isSeparator rest
    else
      match pieces isSeparator rest with
      | [] => [[c]]
      | piece :: more => (c :: piece) :: more

/-- The segments of a path. -/
def segments (path : List Char) : List (List Char) :=
  pieces (· == '/') path

/-- Joins segments with `/`. -/
def joinSegments (parts : List (List Char)) : List Char :=
  ['/'].intercalate parts

/-- Whether a path starts at the root. -/
def isAbsolute (path : String) : Bool :=
  path.toList.head? == some '/'

/-- Whether a segment other than the first names nothing. -/
def isIdle (segment : List Char) : Bool :=
  segment.isEmpty || segment == ['.']

/-- The segments of a relative path or of what follows the root, last one first,
    without those at the end that name nothing. -/
def significant (absolute : Bool) (path : List Char) : List (List Char) :=
  let trailing := (segments path).reverse.dropWhile isIdle
  -- A leading `.` is a component of its own, so it survives when all else is idle.
  if trailing.isEmpty && !absolute && (segments path).head? == some ['.'] then [['.']]
  else trailing

/-- The text after the root of an absolute path; a relative path as it is. -/
def body (path : String) : List Char :=
  if isAbsolute path then path.toList.tail else path.toList

/-- The last component of a path: none for the root and for the empty path. -/
def last? (path : String) : Option (List Char) :=
  (significant (isAbsolute path) (body path)).head?

/-- The path without its last component: none for the root and for the empty path,
    the empty path for a single component. -/
def parent? (path : String) : Option String :=
  let absolute := isAbsolute path
  match significant absolute (body path) with
  | [] => none
  | _ :: rest =>
    let kept := significant absolute (joinSegments rest.reverse)
    let text := joinSegments kept.reverse
    some (String.ofList (if absolute then '/' :: text else text))

/-- The path `path` seen from the directory `base`. An absolute path stays as it
    is, and so does every path seen from the empty directory. -/
def join (base path : String) : String :=
  if isAbsolute path || base.isEmpty then path
  else if base.toList.getLast? == some '/' then base ++ path
  else base ++ "/" ++ path

/-- The name of the file that a path leads to: its last component, unless that is
    `.` or `..`. -/
def fileName? (path : String) : Option (List Char) :=
  (last? path).filter fun name => name != ['.'] && name != ['.', '.']

/-- A name divided at its last dot, if it has one after its first character. -/
def splitName? (name : List Char) : Option (List Char × List Char) :=
  let after := name.reverse.takeWhile (· != '.')
  let before := name.take (name.length - after.length - 1)
  if after.length < name.length && !before.isEmpty then some (before, after.reverse) else none

/-- The file's name up to its last dot. -/
def stem? (path : String) : Option String :=
  (fileName? path).map fun name =>
    match splitName? name with
    | some (stem, _) => String.ofList stem
    | none => String.ofList name

/-- The file's name after its last dot. -/
def extension? (path : String) : Option String := do
  let name ← fileName? path
  let (_, extension) ← splitName? name
  return String.ofList extension

end Bundler.Path

import Bundler.Path.Canonical

/-!
# Specifiers

A specifier is the text with which a module names another one. It is resolved
lexically, so two spellings of one path always give one identifier.

* `Specifier.isRelative`: the specifiers that are seen from the importing module;
* `Specifier.resolve`: the identifier that a specifier stands for.
-/

namespace Bundler

/-- Why a specifier stands for no module. -/
inductive UnresolvedReason where
  /-- The specifier is the empty text. -/
  | empty
  /-- The specifier is neither a relative nor an absolute path. -/
  | bare
  /-- No file answers to the path that the specifier stands for. -/
  | noSuchFile (path : String)
  /-- A reason in words of its own. -/
  | other (text : String)
  deriving DecidableEq, Repr

namespace Specifier

/-- Whether a specifier is seen from the importing module: `.`, `..`, or a path
    that starts with one of them. -/
def isRelative (specifier : String) : Bool :=
  specifier == "." || specifier == ".." || specifier.toList.take 2 == ['.', '/'] ||
    specifier.toList.take 3 == ['.', '.', '/']

/-- The directory of a module, as far as its identifier tells. -/
def directory (module : String) : String :=
  (Path.parent? (Path.slashed module)).getD ""

/-- The canonical identifier that `specifier` stands for inside `module`. -/
def resolve (module specifier : String) : Except UnresolvedReason String :=
  if specifier.isEmpty then .error .empty
  else if Path.isAbsolute specifier then .ok (Path.canonical specifier)
  else if !isRelative specifier then .error .bare
  else .ok (Path.canonical (Path.join (directory module) specifier))

end Specifier

/-- How identifiers are matched with files. -/
structure Locator where
  /-- The endings tried, in order, for an identifier without one. -/
  extensions : List String
  deriving DecidableEq, Repr

namespace Locator

/-- The endings of the files that modules are written in. -/
def defaultExtensions : List String :=
  [".js", ".mjs", ".cjs"]

/-- The files tried for an identifier, in order: the path itself, the path with each
    extension, and the index files with each extension inside the path. -/
def candidates (locator : Locator) (id : String) : List String :=
  id :: locator.extensions.map (id ++ ·) ++
    locator.extensions.map fun ext => Path.canonical (id ++ "/index" ++ ext)

end Locator

end Bundler

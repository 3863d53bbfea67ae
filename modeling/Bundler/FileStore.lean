import Bundler.Error
import Bundler.Run

/-!
# File stores

What a build asks of a place where files are: whether a path leads to a file, its
text, and to write texts and make directories. A program that is written against
`FileStore` runs on any store: on the machine's files as well as on a value that
holds them.
-/

namespace Bundler

/-- A monad in which files can be looked at and written. -/
class FileStore (m : Type → Type) where
  /-- Whether a path leads to a file. -/
  isFile : String → m Bool
  /-- Whether a path leads to anything. -/
  isTaken : String → m Bool
  /-- The text of the file that a path leads to. -/
  read : String → m (Except FileFault String)
  /-- Gives the file that a path leads to a new text. -/
  write : String → String → m (Except FileFault Unit)
  /-- Makes a directory and those above it, as far as they are missing. -/
  makeDirectory : String → m (Except FileFault Unit)

/-- Actions that may fail look at the files that other actions look at. -/
instance {m : Type → Type} {ε : Type} [Monad m] [FileStore m] : FileStore (ExceptT ε m) where
  isFile path := ExceptT.lift (FileStore.isFile path)
  isTaken path := ExceptT.lift (FileStore.isTaken path)
  read path := ExceptT.lift (FileStore.read path)
  write path text := ExceptT.lift (FileStore.write path text)
  makeDirectory path := ExceptT.lift (FileStore.makeDirectory path)

/-- Actions that may go on for ever look at the files that others look at. -/
instance {σ : Type} [FileStore (StateM σ)] : FileStore (Run σ) where
  isFile path := .ofEnding (FileStore.isFile path)
  isTaken path := .ofEnding (FileStore.isTaken path)
  read path := .ofEnding (FileStore.read path)
  write path text := .ofEnding (FileStore.write path text)
  makeDirectory path := .ofEnding (FileStore.makeDirectory path)

end Bundler

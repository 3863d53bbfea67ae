import Bundler.CommandLine
import Bundler.FileStore.Tree
import Bundler.Report.Filter

/-!
# Sessions

A session is a directory tree in which the program is called, each time in some directory and
refused whatever the system refuses it, with all that the program shows: the lines for a person,
the lines that tell of a failure, and the events that a filter lets through. No time passes in it.

* `Session.perform`: what a call of the program leaves behind;
* `Session.performAll`: what calls one after another leave behind.
-/

namespace Bundler

/-- A directory tree in which the program runs, with what it shows. -/
structure Session where
  /-- The files and directories. -/
  tree : Tree
  /-- Where the program runs, and what it is refused. -/
  process : Process
  /-- Which events are told. -/
  filter : Filter
  /-- The lines shown so far. -/
  shown : List String
  /-- The lines that tell of a failure. -/
  complaints : List String
  /-- The events told so far. -/
  events : List Event

/-- A call of the program. -/
structure Call where
  /-- Where it runs, and what it is refused. -/
  process : Process
  /-- The words after the program's name. -/
  words : List String

namespace Session

/-- A session in which nothing has been shown, of a program that is refused nothing. -/
def start (tree : Tree) (filter : Filter) : Session :=
  { tree, process := .free, filter, shown := [], complaints := [], events := [] }

instance : FileStore (StateM Session) where
  isFile path := fun session => (session.tree.isFile session.process path, session)
  isTaken path := fun session => (session.tree.isTaken session.process path, session)
  read path := fun session => (session.tree.textAt session.process path, session)
  write path text := fun session =>
    let (result, tree) := session.tree.writeFile session.process path text
    (result, { session with tree })
  makeDirectory path := fun session =>
    let (result, tree) := session.tree.makeDirectories session.process path
    (result, { session with tree })

instance : Reporter (StateM Session) where
  report event := fun session =>
    ((), if session.filter.allows event.level then
        { session with events := session.events ++ [event] }
      else session)
  now := fun session => (⟨0⟩, session)

instance : Console (StateM Session) where
  print line := fun session => ((), { session with shown := session.shown ++ [line] })
  complain line := fun session => ((), { session with complaints := session.complaints ++ [line] })

/-- The exit code of the program called with words, and the session after it. -/
def perform (transform : Transformer) (format : Formatter) (session : Session)
    (words : List String) : Option (Nat × Session) :=
  (runProgram transform.told format words : Run Session Nat) session

/-- The session in which a call is about to be made. -/
def enter (session : Session) (call : Call) : Session :=
  { session with process := call.process }

end Session

end Bundler

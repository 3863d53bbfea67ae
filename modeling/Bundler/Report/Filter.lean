import Bundler.Path
import Bundler.Report

/-!
# Which events are told

A filter is a list of directives such as `debug` or `minipack=info`: from which level
on the events of a part of the program are told. Of the directives that speak of the
events' part the most special one decides, and of those the last.

* `Filter.parse?`: the filter that a text writes;
* `Filter.allows`: whether events of a level are told.
-/

namespace Bundler

/-- One rule of a filter. -/
structure Directive where
  /-- The start of the names of the parts that the rule speaks of; empty for all. -/
  part : String
  /-- The rank of the last level that is told; 0 for none. -/
  rank : Nat
  deriving DecidableEq, Repr

/-- Rules for which events are told. -/
abbrev Filter := List Directive

namespace Filter

/-- The part of the program that all events come from. -/
def eventPart : String := "minipack::utils::logging"

/-- The filter where none is asked for. -/
def default : Filter := [⟨"minipack", Level.info.rank⟩]

/-- The rank that a word writes, in letters of either case or as a digit. -/
def rank? (word : String) : Option Nat :=
  [("off", 0), ("error", 1), ("warn", 2), ("info", 3), ("debug", 4), ("trace", 5),
    ("0", 0), ("1", 1), ("2", 2), ("3", 3), ("4", 4), ("5", 5)].lookup word.toLower

/-- Whether a text can be the start of the name of a part. -/
def isPart (text : List Char) : Bool :=
  !text.isEmpty && text.all fun c => c.isAlphanum || c == '_' || c == ':' || c == '-'

/-- The rule that a text writes: a level, a part, or a part and a level. A part alone
    asks for everything. -/
def directive? (text : List Char) : Option Directive :=
  match rank? (String.ofList text) with
  | some rank => some ⟨"", rank⟩
  | none =>
    let part := text.takeWhile (· != '=')
    if isPart part then
      match text.dropWhile (· != '=') with
      | [] | ['='] => some ⟨String.ofList part, Level.trace.rank⟩
      | _ :: level => (rank? (String.ofList level)).map fun rank => ⟨String.ofList part, rank⟩
    else none

/-- The rules that a text writes, with commas between them. A text without rules tells
    of errors only. -/
def parse? (text : String) : Option Filter := do
  let rules := (Path.pieces (· == ',') text.toList).filter fun piece => !piece.isEmpty
  let filter ← rules.mapM directive?
  return if filter.isEmpty then [⟨"", Level.error.rank⟩] else filter

/-- The more special of two rules, the second where neither is. -/
def moreSpecial (first second : Directive) : Directive :=
  if second.part.length < first.part.length then first else second

/-- The rank of the last level that is told of the events' part. -/
def lastRank (filter : Filter) : Nat :=
  match filter.filter fun rule => rule.part.toList.isPrefixOf eventPart.toList with
  | [] => 0
  | first :: more => (more.foldl moreSpecial first).rank

/-- Whether events of a level are told. -/
def allows (filter : Filter) (level : Level) : Bool :=
  level.rank ≤ filter.lastRank

/-- The filter that a setting asks for; the default where it asks for none that can be
    read. -/
def ofSetting (setting : Option String) : Filter :=
  (setting.bind parse?).getD default

end Filter

end Bundler

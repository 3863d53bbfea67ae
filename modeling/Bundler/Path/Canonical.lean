import Bundler.Path

/-!
# Canonical paths

What a path means when it is read lexically: whether it starts at the root, how
often it climbs out of where it starts, and which names it goes down. Both `/` and
`\` divide segments.

* `Route.ofPath`: the meaning of a path, segment by segment on a stack;
* `Route.render`: the one canonical spelling of a meaning;
* `canonical`: a path in its canonical spelling.
-/

namespace Bundler.Path

/-- The meaning of a path. -/
structure Route where
  /-- Whether the path starts at the root. -/
  rooted : Bool
  /-- How many levels a relative path goes up before it goes down. -/
  climbs : Nat
  /-- The names that the path goes down, the last one first. -/
  stack : List (List Char)
  deriving DecidableEq, Repr

namespace Route

/-- Follows one segment: an idle one stays, `..` undoes the last name or else climbs
    (the root has nothing above it), and any other goes down. -/
def follow (route : Route) (segment : List Char) : Route :=
  if isIdle segment then route
  else if segment = ['.', '.'] then
    match route.stack with
    | _ :: rest => { route with stack := rest }
    | [] => if route.rooted then route else { route with climbs := route.climbs + 1 }
  else { route with stack := segment :: route.stack }

/-- Whether a character divides segments. -/
def isDivider (c : Char) : Bool :=
  c == '/' || c == '\\'

/-- The meaning of a path. -/
def ofPath (path : List Char) : Route :=
  (pieces isDivider path).foldl follow ⟨path.head?.any isDivider, 0, []⟩

/-- The segments that spell a meaning. -/
def spelling (route : Route) : List (List Char) :=
  List.replicate route.climbs ['.', '.'] ++ route.stack.reverse

/-- The canonical spelling of a meaning; where the path stays at its start, `.`. -/
def render (route : Route) : List Char :=
  if route.rooted then '/' :: joinSegments route.spelling
  else if route.spelling.isEmpty then ['.']
  else joinSegments route.spelling

end Route

/-- A path in its canonical spelling: `.` and `..` segments resolved, no repeated
    separators, and `/` as the only separator. -/
def canonical (path : String) : String :=
  String.ofList (Route.ofPath path.toList).render

/-- A path with `/` in place of every `\`. -/
def slashed (path : String) : String :=
  String.ofList (path.toList.map fun c => if c == '\\' then '/' else c)

end Bundler.Path

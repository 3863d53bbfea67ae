import Bundler.Script.Ast

/-!
# Names that declarations bind, and names that a module exports

* `Node.boundNames`: the names that a pattern or a declaration binds;
* `TopLevel.exportedNames`: the names under which a statement exports.
-/

namespace Bundler.Script

namespace Node

mutual

/-- The names that a pattern or a declaration binds, in the order in which they are
    written. -/
def boundNames : Node → List Ident
  | .name id => [id]
  | .property _ _ value _ => value.boundNames
  | .withDefault _ target _ => target.boundNames
  | .objectPattern _ properties => boundNamesOf properties
  | .arrayPattern _ items => boundNamesOf items
  | .rest _ target => target.boundNames
  | .varDeclaration _ _ declarators => boundNamesOf declarators
  | .declarator _ target _ => target.boundNames
  | .func _ _ id _ _ _ => id.toList
  | .classDef _ _ id _ _ _ => id.toList
  | _ => []

/-- The names that patterns bind. -/
def boundNamesOf : List Node → List Ident
  | [] => []
  | node :: more => node.boundNames ++ boundNamesOf more

end

end Node

namespace TopLevel

/-- The name under which a default export is asked for. -/
def defaultName : String := "default"

/-- The names under which a statement exports, with their offsets. An export of all that
    another module exports has no name of its own. -/
def exportedNames : TopLevel → List (String × Nat)
  | .statement _ => []
  | .importFrom .. => []
  | .exportDeclaration _ declaration => declaration.boundNames.map fun id => (id.name, id.span.start)
  | .exportNames _ specifiers _ =>
    specifiers.map fun specifier => (specifier.exported.name, specifier.exported.span.start)
  | .exportDefault span _ => [(defaultName, span.start)]
  | .exportAll _ exported _ => exported.toList.map fun name => (name.name, name.span.start)

end TopLevel

/-- The first offset of each name that is there again later, in the order of the later
    ones. -/
def repeatedNames (names : List (String × Nat)) : List (String × Nat) :=
  go [] names
where
  /-- The same, after names that have been there before. -/
  go : List (String × Nat) → List (String × Nat) → List (String × Nat)
    | _, [] => []
    | before, (name, offset) :: more =>
      match before.find? fun known => known.1 == name with
      | some known => known :: go before more
      | none => go ((name, offset) :: before) more

end Bundler.Script

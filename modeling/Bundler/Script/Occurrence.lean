import Bundler.Script.Basic
import Bundler.Script.Lexeme
import Bundler.Script.Names
import Bundler.Script.Token

/-!
# What occurs in a script

A walk over a script in the order in which it is written tells what matters to its names
and to the rules that it has to keep: the scopes that it opens and closes, the names that
are bound and used, what a bundle has no means for, and the rules that are broken. What
a rule depends on around a part of the script is known on the way (`Surroundings`); only
the names need to be looked up afterwards (`Bundler.Script.Scope`).

* `Node.occurrences`: what occurs in a part of a script;
* `Program.occurrences`: what occurs in a script.
-/

namespace Bundler.Script

/-- What kind of scope a part of a script is. -/
inductive ScopeKind where
  /-- A script or a module. -/
  | top (goal : Goal)
  /-- A function, with its parameters. -/
  | function
  /-- A block, a loop, a choice, or what is done about an error. -/
  | block
  /-- What runs when a class is made. -/
  | staticBlock
  /-- A place for a name that only the function or class of that name knows. -/
  | ownName
  deriving DecidableEq, Repr

/-- By what a name is bound. -/
inductive BindingKind where
  /-- An import. -/
  | imported
  /-- A variable of a function, or of the top. -/
  | var
  /-- A variable or constant of a block. -/
  | lexical
  /-- A class. -/
  | classDef
  /-- A function; whether the declaration is a plain one in code that is not strict, and
      whether it stands in place of a statement. -/
  | function (plain alone : Bool)
  /-- A parameter, and whether no other one may have its name. -/
  | param (only : Bool)
  /-- An error, and whether it is bound by a name alone. -/
  | caught (simple : Bool)
  /-- A function or class, for itself alone. -/
  | ownName
  deriving DecidableEq, Repr

/-- How a name is used. -/
inductive Role where
  /-- In an expression, or as a target. -/
  | plain
  /-- As a property of an object and its value at once. -/
  | shorthand
  /-- As what is called. -/
  | callee
  /-- As what is exported. -/
  | exported
  deriving DecidableEq, Repr

/-- What occurs in a script. -/
inductive Occurrence where
  /-- A scope starts. -/
  | enter (kind : ScopeKind)
  /-- A scope ends. -/
  | leave
  /-- The names used in a scope so far are looked up without those that it binds later. -/
  | settle
  /-- A name is bound. -/
  | bind (id : Ident) (kind : BindingKind)
  /-- A name is used. -/
  | use (id : Ident) (role : Role)
  /-- Something that a bundle has no means for. -/
  | unsupported (construct : Unsupported) (offset : Nat)
  /-- A rule is broken. -/
  | broken (issue : Issue)
  deriving DecidableEq, Repr

/-- What is known about the code around a part of a script. -/
structure Surroundings where
  /-- What the script is read as. -/
  goal : Goal
  /-- Whether the code is strict. -/
  strict : Bool
  /-- The labels of the statements around, and whether each labels a loop. -/
  labels : List (String × Bool)
  /-- Whether a loop is around. -/
  inLoop : Bool
  /-- Whether a loop or a choice among cases is around. -/
  breakable : Bool
  /-- Whether the body of a function is around. -/
  inBody : Bool
  /-- Whether the code is among the parameters of a function. -/
  inParams : Bool
  /-- Whether a function that may wait has the code among its parameters. -/
  inAsyncParams : Bool
  /-- Whether the code stands in what runs when a class is made, but in no block of it. -/
  inStaticBlock : Bool
  /-- Whether `new.target` means something. -/
  newTarget : Bool
  /-- Whether `super` may be called. -/
  superCall : Bool
  /-- Whether `super` may have a property. -/
  superProperty : Bool
  /-- Whether the name `arguments` may not be used. -/
  noArguments : Bool
  /-- The private names that the classes around declare. -/
  privateNames : List String

namespace Surroundings

/-- What is known at the top of a script. -/
def top (goal : Goal) (strict : Bool) : Surroundings :=
  { goal, strict, labels := [], inLoop := false, breakable := false, inBody := false,
    inParams := false, inAsyncParams := false, inStaticBlock := false, newTarget := false,
    superCall := false, superProperty := false, noArguments := false, privateNames := [] }

/-- What is known in a block. -/
def inBlock (around : Surroundings) : Surroundings :=
  { around with inStaticBlock := false }

/-- What is known in the body of a loop. -/
def inLoopBody (around : Surroundings) : Surroundings :=
  { around with inLoop := true, breakable := true, inStaticBlock := false }

/-- What is known among the parameters of a function. What an arrow function means by
    `super`, `arguments` and `new.target` is what they mean around it. -/
def inParamsOf (around : Surroundings) (shape : FunctionShape) (strict : Bool)
    (superCall superProperty : Bool) : Surroundings :=
  let inside := { around with
    strict
    labels := []
    inLoop := false
    breakable := false
    inParams := true
    inAsyncParams := shape.isAsync
    inStaticBlock := false }
  if shape.isArrow then inside
  else { inside with newTarget := true, superCall, superProperty, noArguments := false }

/-- What is known in the body of a function. -/
def inBodyOf (params : Surroundings) : Surroundings :=
  { params with inBody := true, inParams := false, inAsyncParams := false }

/-- What is known in a class. -/
def inClass (around : Surroundings) (privateNames : List String) : Surroundings :=
  { around with strict := true, privateNames := privateNames ++ around.privateNames }

/-- What is known in the value of a field. -/
def inField (around : Surroundings) : Surroundings :=
  { around with
    labels := []
    inLoop := false
    breakable := false
    inParams := false
    inStaticBlock := false
    newTarget := true
    superCall := false
    superProperty := true
    noArguments := true }

end Surroundings

/-- As what a part of a script stands where it does. -/
inductive Place where
  /-- As an expression. -/
  | value
  /-- As what is assigned to. -/
  | target
  /-- As a pattern that binds names. -/
  | binding (kind : BindingKind)
  /-- As a statement; alone where a declaration may not stand. -/
  | statement (alone : Bool)
  /-- As the function of a method, in which `super` may be called or not. -/
  | method (superCall : Bool)
  /-- As an element of a class, which may extend another one. -/
  | element (hasParent : Bool)
  /-- As what is called. -/
  | callee
  /-- As the value of a property that it also names. -/
  | shorthand
  /-- As a block that belongs to the scope around it. -/
  | shared
  deriving DecidableEq, Repr

namespace Place

/-- As what the parts of a pattern stand that stands somewhere. -/
def ofPart : Place → Place
  | .target => .target
  | .binding kind => .binding kind
  | _ => .value

end Place

/-- A broken rule. -/
def broken (offset : Nat) (text : String) : Occurrence :=
  .broken ⟨offset, text⟩

/-- A rule that is broken under a condition. -/
def brokenIf (condition : Bool) (offset : Nat) (text : String) : List Occurrence :=
  if condition then [broken offset text] else []

/-! ### Rules about names -/

/-- The rules about any name. -/
def nameRules (around : Surroundings) (id : Ident) : List Occurrence :=
  brokenIf (id.name == "await" &&
      (around.goal == .module || around.inAsyncParams || around.inStaticBlock))
    id.span.start "The word await as a name" ++
  brokenIf (around.strict && isStrictReserved id.name) id.span.start "A reserved word as a name"

/-- Whether a name is one that strict code may not change. -/
def isFixedName (name : String) : Bool :=
  name == "eval" || name == "arguments"

/-- The rules about a name that is bound or assigned to. -/
def targetRules (around : Surroundings) (id : Ident) : List Occurrence :=
  nameRules around id ++
  brokenIf (around.strict && isFixedName id.name) id.span.start "A name that is fixed"

/-- The rules about a name that is bound. -/
def bindingRules (around : Surroundings) (kind : BindingKind) (id : Ident) : List Occurrence :=
  targetRules around id ++
  brokenIf (!around.strict && kind == .lexical && id.name == "let") id.span.start
    "The word let as the name of a variable"

/-- A name that is bound, and the rules about it. -/
def bound (around : Surroundings) (kind : BindingKind) (id : Ident) : List Occurrence :=
  bindingRules around kind id ++ [.bind id kind]

/-- A name that is used, and the rules about it. -/
def used (around : Surroundings) (role : Role) (id : Ident) : List Occurrence :=
  nameRules around id ++
  brokenIf (around.noArguments && id.name == "arguments") id.span.start
    "The arguments of no function" ++
  [.use id role]

/-! ### Rules about other parts -/

/-- The rules about a literal. -/
def literalRules (around : Surroundings) (span : Span) : Literal → List Occurrence
  | .number written =>
    brokenIf (around.strict && Lexeme.isLegacyNumber written) span.start
      "A number in the form of old"
  | .string _ written =>
    brokenIf (around.strict && Lexeme.hasLegacyEscape written) span.start
      "An escape in the form of old"
  | _ => []

/-- Whether a directive makes code strict. -/
def Directive.isStrict (directive : Directive) : Bool :=
  directive.inside == "use strict".toList

/-- Whether a function's own directives make it strict. -/
def bodyIsStrict : Node → Bool
  | .body _ directives _ => directives.any Directive.isStrict
  | _ => false

/-- The rules about directives. -/
def directiveRules (strict : Bool) (directives : List Directive) : List Occurrence :=
  directives.flatMap fun directive =>
    brokenIf (strict && Lexeme.hasLegacyEscape directive.inside) directive.literal.start
      "An escape in the form of old"

/-- Whether a parameter is a name alone. -/
def isSimpleParam : Node → Bool
  | .name _ => true
  | _ => false

/-- The rules about the directives of a function: one that makes it strict needs parameters
    that are names alone. -/
def bodyRules (params : List Node) (body : Node) (strict : Bool) : List Occurrence :=
  match body with
  | .body _ directives _ =>
    (match directives.find? Directive.isStrict with
      | some directive =>
        brokenIf (!params.all isSimpleParam) directive.span.start "Strictness after parameters"
      | none => []) ++
    directiveRules strict directives
  | _ => []

/-- The rules about a statement in whose place a function may be declared or not. -/
def aloneRules (around : Surroundings) (mayDeclare : Bool) : Node → List Occurrence
  | .func span .. =>
    brokenIf (around.strict || !mayDeclare) span.start "A declaration in place of a statement"
  | _ => []

/-- Whether a statement is a loop, maybe with labels. -/
def isLoop : Node → Bool
  | .labeled _ _ body => isLoop body
  | .forLoop .. | .forIn .. | .forOf .. | .whileLoop .. | .doWhile .. => true
  | _ => false

/-- The rules about a step out of a statement. -/
def breakRules (around : Surroundings) (span : Span) : Option Ident → List Occurrence
  | none => brokenIf (!around.breakable) span.start "A break that leaves nothing"
  | some label =>
    brokenIf (!around.labels.any fun known => known.1 == label.name) label.span.start
      "An unknown label"

/-- The rules about a step to the end of a loop's round. -/
def continueRules (around : Surroundings) (span : Span) : Option Ident → List Occurrence
  | none => brokenIf (!around.inLoop) span.start "A continue outside of a loop"
  | some label =>
    brokenIf (!around.labels.any fun known => known.1 == label.name && known.2) label.span.start
      "A label of no loop"

/-- The rules about what `delete` may stand before. -/
def deleteRules (around : Surroundings) (span : Span) (operand : Node) : List Occurrence :=
  match operand.bare with
  | .name _ => brokenIf around.strict span.start "A name that is deleted"
  | .member _ _ (.privateName _) _ => [broken span.start "A private name that is deleted"]
  | .chain _ (.member _ _ (.privateName _) _) =>
    [broken span.start "A private name that is deleted"]
  | _ => []

/-- The offsets of the properties that set what an object inherits from. -/
def inheritanceOffsets (members : List Node) : List Nat :=
  members.filterMap fun member =>
    match member with
    | .property span (.keyName id) _ false => if id.name == "__proto__" then some span.start else none
    | .property span (.literal _ (.string value _)) _ false =>
      if StringValue.toText value == "__proto__" then some span.start else none
    | _ => none

/-- The rules about the members of an object. -/
def objectRules (members : List Node) : List Occurrence :=
  match inheritanceOffsets members with
  | first :: _ :: _ => [broken first "An object that inherits twice"]
  | _ => []

/-- The rules about the cases of a choice. -/
def caseRules (cases : List Node) : List Occurrence :=
  match cases.filterMap fun case => match case with
    | .case span none _ => some span.start
    | _ => none with
  | first :: _ :: _ => [broken first "A second default case"]
  | _ => []

/-! ### Rules about classes -/

/-- The private name that an element of a class declares: the name, whether the element is
    static, and what it is, if it is an accessor. -/
def privateElement? : Node → Option (Ident × Bool × Option MethodKind)
  | .method _ _ isStatic kind (.privateName id) _ =>
    some (id, isStatic, if kind == .getter || kind == .setter then some kind else none)
  | .field _ _ isStatic _ (.privateName id) _ => some (id, isStatic, none)
  | _ => none

/-- Whether two elements may declare one private name: they are the two accessors of it. -/
def arePaired (one other : Bool × Option MethodKind) : Bool :=
  one.1 == other.1 && one.2.isSome && other.2.isSome && one.2 != other.2

/-- The offsets of the private names that are declared again, and not as the other
    accessor. -/
def repeatedPrivates : List (Ident × Bool × Option MethodKind) → List Nat
  | [] => []
  | (id, element) :: more =>
    let again := more.filter fun other => other.1.name == id.name
    (if again.any fun other => !arePaired element other.2 then [id.span.start] else []) ++
    repeatedPrivates more

/-- Whether an element is the method that makes the objects of a class. -/
def isMaker : Node → Bool
  | .method _ _ _ .maker _ _ => true
  | _ => false

/-- The rules about the elements of a class. -/
def classRules (elements : List Node) : List Occurrence :=
  (match elements.filter isMaker with
    | first :: _ :: _ => [broken first.start "A second constructor"]
    | _ => []) ++
  (repeatedPrivates (elements.filterMap privateElement?)).map fun offset =>
    broken offset "A private name declared twice"

/-! ### The walk -/

namespace Node

mutual

/-- What occurs in a part of a script that stands somewhere. -/
def occurrences (around : Surroundings) (place : Place) : Node → List Occurrence
  | .name id =>
    match place with
    | .binding kind => bound around kind id
    | .target => targetRules around id ++ [.use id .plain]
    | .callee => used around .callee id
    | .shorthand => used around .shorthand id
    | _ => used around .plain id
  | .self _ | .hole _ | .keyName _ | .empty _ | .debugger _ => []
  | .superRef span =>
    brokenIf (!if place == .callee then around.superCall else around.superProperty) span.start
      "The word super outside of a method"
  | .literal span value => literalRules around span value
  | .template _ _ values => listOccurrences around .value values
  | .tagged _ tag _ values => tag.occurrences around .value ++ listOccurrences around .value values
  | .array _ items => listOccurrences around .value items
  | .spread _ value => value.occurrences around .value
  | .object _ members => objectRules members ++ listOccurrences around .value members
  | .property _ key value shorthand =>
    (if shorthand then [] else key.occurrences around .value) ++
      value.occurrences around
        (if shorthand && place.ofPart == .value then .shorthand else place.ofPart)
  | .method _ decorators _ kind key value =>
    listOccurrences around .value decorators ++ key.occurrences around .value ++
      value.occurrences around (.method (kind == .maker && place == .element true))
  | .privateName id =>
    brokenIf (!around.privateNames.contains id.name) id.span.start "An unknown private name"
  | .computed value => value.occurrences around .value
  | .withDefault _ target value =>
    target.occurrences around place.ofPart ++ value.occurrences around .value
  | .objectPattern _ properties => listOccurrences around place properties
  | .arrayPattern _ items => listOccurrences around place items
  | .rest _ target => target.occurrences around place
  | .func _ shape id _ params code =>
    let strict := around.strict || bodyIsStrict code
    let isMethod := match place with
      | .method _ => true
      | _ => false
    let inParams := around.inParamsOf shape strict (place == .method true) isMethod
    let only := strict || shape.isArrow || isMethod || !params.all isSimpleParam
    let inside :=
      [.enter .function] ++ listOccurrences inParams (.binding (.param only)) params ++ [.settle] ++
        bodyRules params code strict ++ code.occurrences inParams.inBodyOf .value ++ [.leave]
    match place, id with
    | .statement alone, some id =>
      let plain := !strict && !shape.isAsync && !shape.isGenerator
      bound { around with strict } (.function plain alone) id ++ inside
    | _, some id =>
      [.enter .ownName] ++ bound { around with strict } .ownName id ++ inside ++ [.leave]
    | _, none => inside
  | .body _ _ statements => listOccurrences around (.statement false) statements
  | .classDef _ decorators id parent _ elements =>
    let privates := elements.filterMap privateElement?
    let inClass := around.inClass (privates.map fun element => element.1.name)
    let inside :=
      optionOccurrences (around.inClass []) .value parent ++ classRules elements ++
        listOccurrences inClass (.element parent.isSome) elements
    let named := match place, id with
      | .statement _, some id =>
        bound (around.inClass []) .classDef id ++ [.enter .ownName] ++ inside ++ [.leave]
      | _, some id => [.enter .ownName] ++ bound (around.inClass []) .ownName id ++ inside ++ [.leave]
      | _, none => [.enter .ownName] ++ inside ++ [.leave]
    listOccurrences around .value decorators ++ named
  | .field _ decorators _ _ key value =>
    listOccurrences around .value decorators ++ key.occurrences around .value ++
      optionOccurrences around.inField .value value
  | .staticBlock _ statements =>
    [.enter .staticBlock] ++
      listOccurrences { around.inField with inStaticBlock := true } (.statement false) statements ++
      [.leave]
  | .unary span op operand =>
    (if op == .delete then deleteRules around span operand else []) ++
      operand.occurrences around .value
  | .update _ _ _ operand => operand.occurrences around .target
  | .binary _ _ left right => left.occurrences around .value ++ right.occurrences around .value
  | .conditional _ test yes no =>
    test.occurrences around .value ++ yes.occurrences around .value ++ no.occurrences around .value
  | .assign _ _ target value =>
    target.occurrences around .target ++ value.occurrences around .value
  | .sequence _ items => listOccurrences around .value items
  | .member _ owner key _ => owner.occurrences around .value ++ key.occurrences around .value
  | .index _ owner key _ => owner.occurrences around .value ++ key.occurrences around .value
  | .call _ callee arguments _ _ =>
    callee.occurrences around .callee ++ listOccurrences around .value arguments
  | .chain _ value => value.occurrences around .value
  | .make _ callee arguments _ =>
    callee.occurrences around .value ++ listOccurrences around .value arguments
  | .importCall span _ arguments =>
    .unsupported .dynamicImport span.start :: listOccurrences around .value arguments
  | .metaProperty span word _ =>
    if word == "import" then [.unsupported .importMeta span.start]
    else brokenIf (!around.newTarget) span.start "The word new.target outside of a function"
  | .yieldValue span _ value =>
    brokenIf around.inParams span.start "A value handed out among parameters" ++
      optionOccurrences around .value value
  | .awaitValue span value =>
    brokenIf around.inParams span.start "A value waited for among parameters" ++
      brokenIf around.inStaticBlock span.start "A value waited for while a class is made" ++
      (if around.inBody then [] else [.unsupported .topLevelAwait span.start]) ++
      value.occurrences around .value
  | .paren _ value => value.occurrences around .value
  | .expression _ value => value.occurrences around .value
  | .varDeclaration _ kind declarators =>
    listOccurrences around (.binding (if kind == .var then .var else .lexical)) declarators
  | .declarator _ target value =>
    target.occurrences around place ++ optionOccurrences around .value value
  | .block _ statements =>
    if place == .shared then listOccurrences around (.statement false) statements
    else [.enter .block] ++ listOccurrences around.inBlock (.statement false) statements ++ [.leave]
  | .ifElse _ test yes no =>
    test.occurrences around .value ++
      aloneRules around true yes ++ yes.occurrences around (.statement true) ++
      (match no with
        | some no => aloneRules around true no
        | none => []) ++ optionOccurrences around (.statement true) no
  | .forLoop _ head test step code =>
    let inside := around.inBlock
    [.enter .block] ++ optionOccurrences inside .value head ++ optionOccurrences inside .value test ++
      optionOccurrences inside .value step ++ aloneRules around false code ++
      code.occurrences around.inLoopBody (.statement true) ++ [.leave]
  | .forIn _ head value code =>
    let inside := around.inBlock
    [.enter .block] ++
      (match head with
        | .varDeclaration span _ [.declarator _ _ (some _)] =>
          brokenIf around.strict span.start "A first value in a loop over names"
        | _ => []) ++
      head.occurrences inside .target ++ value.occurrences inside .value ++
      aloneRules around false code ++ code.occurrences around.inLoopBody (.statement true) ++ [.leave]
  | .forOf span isAwait head value code =>
    let inside := around.inBlock
    (if isAwait && !around.inBody then [.unsupported .topLevelForAwait span.start] else []) ++
      [.enter .block] ++ head.occurrences inside .target ++ value.occurrences inside .value ++
      aloneRules around false code ++ code.occurrences around.inLoopBody (.statement true) ++ [.leave]
  | .whileLoop _ test code =>
    test.occurrences around .value ++ aloneRules around false code ++
      code.occurrences around.inLoopBody (.statement true)
  | .doWhile _ code test =>
    aloneRules around false code ++ code.occurrences around.inLoopBody (.statement true) ++
      test.occurrences around .value
  | .continueTo span label => continueRules around span label
  | .breakOut span label => breakRules around span label
  | .returnValue _ value => optionOccurrences around .value value
  | .withObject span scope code =>
    brokenIf around.strict span.start "An object in scope" ++ scope.occurrences around .value ++
      aloneRules around false code ++ code.occurrences around (.statement true)
  | .switchOn _ value cases =>
    value.occurrences around .value ++ caseRules cases ++ [.enter .block] ++
      listOccurrences { around.inBlock with breakable := true } .value cases ++ [.leave]
  | .case _ test statements =>
    optionOccurrences around .value test ++ listOccurrences around (.statement false) statements
  | .labeled _ label code =>
    nameRules around label ++
      brokenIf (around.labels.any fun known => known.1 == label.name) label.span.start
        "A label that is there already" ++
      aloneRules around true code ++
      code.occurrences { around with labels := (label.name, isLoop code) :: around.labels }
        (.statement true)
  | .throwValue _ value => value.occurrences around .value
  | .tryCatch _ code caught always =>
    code.occurrences around (.statement false) ++ optionOccurrences around .value caught ++
      optionOccurrences around .value always
  | .handler _ param code =>
    let inside := around.inBlock
    [.enter .block] ++
      optionOccurrences inside (.binding (.caught (param.any isSimpleParam))) param ++
      code.occurrences inside .shared ++ [.leave]

/-- What occurs in parts of a script, one after another. -/
def listOccurrences (around : Surroundings) (place : Place) : List Node → List Occurrence
  | [] => []
  | node :: more => node.occurrences around place ++ listOccurrences around place more

/-- What occurs in a part of a script, if it is there. -/
def optionOccurrences (around : Surroundings) (place : Place) : Option Node → List Occurrence
  | none => []
  | some node => node.occurrences around place

end

end Node

/-! ### The top -/

namespace TopLevel

/-- The binding of an import. -/
def importedId : ImportSpecifier → Ident
  | .defaultExport id | .wholeModule id | .named _ id => id

/-- What occurs in a statement at the top. -/
def occurrences (around : Surroundings) : TopLevel → List Occurrence
  | .statement node => node.occurrences around (.statement false)
  | .importFrom _ specifiers _ =>
    (specifiers.getD []).flatMap fun specifier => bound around .imported (importedId specifier)
  | .exportDeclaration _ declaration => declaration.occurrences around (.statement false)
  | .exportNames _ specifiers none =>
    specifiers.flatMap fun specifier =>
      used around .exported ⟨specifier.source.name, specifier.source.span⟩
  | .exportNames _ _ (some _) => []
  | .exportDefault _ value =>
    match value with
    | .func .. | .classDef .. => value.occurrences around (.statement false)
    | _ => value.occurrences around .value
  | .exportAll .. => []

end TopLevel

/-- What occurs in a script or a module. A module is strict. -/
def Program.occurrences (goal : Goal) (program : Program) : List Occurrence :=
  let strict := goal == .module || program.directives.any Directive.isStrict
  let around := Surroundings.top goal strict
  [.enter (.top goal)] ++ directiveRules strict program.directives ++
    program.body.flatMap (TopLevel.occurrences around) ++ [.leave]

end Bundler.Script

import Bundler.Script.Layout.Number
import Bundler.Script.Layout.Slot

/-!
# Pieces of a layout

How the parts of a construct are put together once they are laid out: which of them stand on
lines of their own, where blanks and commas go, and which words come before them.
-/

namespace Bundler.Script.Layout

/-! ### Kinds of nodes -/

/-- Whether a statement is a block. -/
def isBlock : Node → Bool
  | .block .. => true
  | _ => false

/-- Whether a statement is a choice. -/
def isChoice : Node → Bool
  | .ifElse .. => true
  | _ => false

/-- Whether a statement ends with a choice that an `else` after it would belong to. -/
def dangles : Node → Bool
  | .ifElse _ _ _ none => true
  | .ifElse _ _ _ (some no) => dangles no
  | .forLoop _ _ _ _ code | .forIn _ _ _ code | .forOf _ _ _ _ code | .whileLoop _ _ code
  | .withObject _ _ code | .labeled _ _ code => dangles code
  | _ => false

/-- Whether an expression, or a target, is a pattern for an object. -/
def isObjectPattern : Node → Bool
  | .objectPattern .. => true
  | _ => false

/-- Whether a node is a function. -/
def isFunction : Node → Bool
  | .func .. => true
  | _ => false

/-- Whether a node stands for no element. -/
def isHole : Node → Bool
  | .hole _ => true
  | _ => false

/-- Whether a node stands for all that is left. -/
def isRest : Node → Bool
  | .rest .. => true
  | _ => false

/-- Whether an expression is a name. -/
def isName (name : String) (node : Node) : Bool :=
  match node.bare with
  | .name id => id.name == name
  | _ => false

/-- Whether an operand starts with the sign of the operator before it, so that both would be
    read as one. -/
def repeatsSign (op : UnaryOp) (operand : Node) : Bool :=
  match op, operand.bare with
  | .minus, .unary _ .minus _ | .plus, .unary _ .plus _ => true
  | .minus, .update _ false true _ | .plus, .update _ true true _ => true
  | _, _ => false

/-- Whether a decorator needs parentheses: it is no name with properties that may be called. -/
def decoratorNeedsParens : Node → Bool
  | .name _ => false
  | .member _ _ _ optional => optional
  | .call _ callee _ _ _ => decoratorNeedsParens callee
  | _ => true

/-- Whether a key and a value are written as one: they are the same name. The key `__proto__`
    of an object means something else than a shorthand, and a target is written as it is. -/
def isShort (slot : Slot) (key value : Node) (shorthand : Bool) : Bool :=
  match key with
  | .keyName id =>
    if id.name == "__proto__" || slot == .target then shorthand
    else
      match value.bare with
      | .name other => id.name == other.name
      | .withDefault _ (.name other) _ => id.name == other.name
      | _ => false
  | _ => false

/-! ### Lists -/

/-- The elements of an array, or of a pattern for one. After a last one that is missing a comma
    stands. -/
def endedItems (last : Option Node) (parts : List Doc) : List Doc :=
  if last.any isHole then parts.dropLast ++ parts.getLast?.toList.map (· ++ Doc.text ",") else parts

/-- Parts on lines of their own between brackets. -/
def lines (setting : Setting) (opening closing : String) (parts : List Doc) : Doc :=
  opening ++ Doc.commaLines setting.deeper.depth parts ++ Doc.ownLine setting.depth closing

/-- An array: up to two elements on a line, more on a line each. -/
def arrayDoc (setting : Setting) (last : Option Node) (parts : List Doc) : Doc :=
  let parts := endedItems last parts
  if parts.length ≤ 2 then "[" ++ Doc.commas parts ++ "]" else lines setting "[" "]" parts

/-- An object: one member on a line, more on a line each. -/
def objectDoc (setting : Setting) (parts : List Doc) : Doc :=
  match parts with
  | [] => "\x7b\x7d"
  | [part] => "\x7b " ++ part ++ " \x7d"
  | _ => lines setting "\x7b" "\x7d" parts

/-- A pattern for an object that binds names. No blank stands before what is left of the
    properties. -/
def bindingObjectDoc (last : Option Node) (parts : List Doc) : Doc :=
  if parts.isEmpty then "\x7b\x7d"
  else if last.any isRest then
    "\x7b " ++ Doc.commas parts.dropLast ++ Doc.onlyIf (1 < parts.length) "," ++
      Doc.concat parts.getLast?.toList ++ " \x7d"
  else "\x7b " ++ Doc.commas parts ++ " \x7d"

/-- The comments before each argument. -/
def argumentComments (setting : Setting) (arguments : List Node) : List (List Comment) :=
  arguments.map fun argument => setting.keptAt argument.start

/-- The comments before the parenthesis after arguments. -/
def closingComments (setting : Setting) (span : Span) : List Comment :=
  setting.keptAt (span.stop - 1)

/-- Whether there are comments among arguments. -/
def areCommented (setting : Setting) (span : Span) (arguments : List Node) : Bool :=
  (argumentComments setting arguments).any (!·.isEmpty) || !(closingComments setting span).isEmpty

/-- The setting of arguments: with comments among them they are on lines of their own. -/
def argumentSetting (setting : Setting) (span : Span) (arguments : List Node) : Setting :=
  if areCommented setting span arguments then setting.deeper else setting

/-- Arguments between parentheses. -/
def argumentsDoc (setting : Setting) (span : Span) (arguments : List Node) (parts : List Doc) : Doc :=
  if areCommented setting span arguments then
    let depth := setting.deeper.depth
    let rows := ((argumentComments setting arguments).zip parts).map fun (comments, part) =>
      ownLines depth comments ++ Doc.ownLine depth part
    "(" ++ Doc.separated "," rows ++ ownLines depth (closingComments setting span) ++
      Doc.ownLine setting.depth ")"
  else "(" ++ Doc.commas parts ++ ")"

/-! ### Words and literals -/

/-- The parts of a template, the texts and the expressions between them. -/
def templateParts : List (List Char) → List Doc → Doc
  | [], _ => .empty
  | part :: parts, [] => String.ofList (withoutClosingTag part) ++ templateParts parts []
  | part :: parts, value :: values =>
    String.ofList (withoutClosingTag part) ++ "$\x7b" ++ value ++ "\x7d" ++
      templateParts parts values

/-- A template. -/
def templateDoc (parts : List (List Char)) (values : List Doc) : Doc :=
  "\x60" ++ templateParts parts values ++ "\x60"

/-- The word that a declaration of variables starts with. -/
def variablesWord : VarKind → String
  | .var => "var"
  | .lexical => "let"
  | .constant => "const"
  | .resource => "using"
  | .awaitedResource => "await using"

/-- The flags of a regular expression, in order. -/
def sortedFlags (flags : List Char) : List Char :=
  flags.mergeSort fun one other => one ≤ other

/-- A literal. -/
def literalText : Literal → String
  | .nothing => "null"
  | .bool value => if value then "true" else "false"
  | .number written => String.ofList (NumberText.shortest (NumberText.read written))
  | .bigint written => Nat.repr (NumberText.readBig written) ++ "n"
  | .string value _ => stringText value
  | .regex body flags => "/" ++ String.ofList body ++ "/" ++ String.ofList (sortedFlags flags)

/-- Whether a dot after an expression would be read as the point of a number. -/
def needsBlankBeforeDot (node : Node) : Bool :=
  match node.bare with
  | .literal _ (.number written) =>
    NumberText.needsBlankBeforeDot (NumberText.shortest (NumberText.read written))
  | _ => false

/-- The words before the key of a method. -/
def methodWords (kind : MethodKind) (value : Node) : String :=
  (match kind with
    | .getter => "get "
    | .setter => "set "
    | _ => "") ++
  (match value with
    | .func _ shape _ _ _ _ =>
      (if shape.isAsync then "async " else "") ++ if shape.isGenerator then "*" else ""
    | _ => "")

/-- The words before the parameters of a function. -/
def functionWords (shape : FunctionShape) (id : Option Ident) : String :=
  (if shape.isAsync then "async " else "") ++ "function" ++
    (if shape.isGenerator then "* " else if id.isSome then " " else "") ++
    (match id with
      | some id => id.name
      | none => "")

/-- The mark of a call without effects. -/
def pureMark : String := "/* @__PURE__ */ "

/-- The mark of a function whose calls are without effects. -/
def quietMark : String := "/* @__NO_SIDE_EFFECTS__ */"

/-- The mark before a function that is declared, on a line of its own. -/
def quietLine (setting : Setting) (slot : Slot) (start : Nat) : Doc :=
  Doc.onlyIf (slot == .statement && (setting.commentsAt start).any Comment.isQuietMark)
    (Doc.indent setting.depth ++ quietMark ++ "\n")

/-- A name after a word, if there is one. -/
def nameAfter (id : Option Ident) : String :=
  match id with
  | none => ""
  | some id => " " ++ id.name

/-- The operator of an assignment. -/
def assignmentText (op : Option BinaryOp) : String :=
  match op with
  | some op => " " ++ op.text ++ "= "
  | none => " = "

/-- The decorators before a class or an element of it. -/
def decoratorsDoc (decorators : List Node) (parts : List Doc) : Doc :=
  Doc.concat ((decorators.zip parts).map fun (decorator, part) =>
    "@" ++ Doc.wrapIf (decoratorNeedsParens decorator) part ++ " ")

/-! ### Slots of parts -/

/-- The levels at which the operands of an operator are laid out. Operators that must not be
    mixed get parentheses. -/
def operandLevels (op : BinaryOp) (left right : Node) : Level × Level :=
  let mixes (operand : Node) : Bool := op == .nullish && operand.bare.isAndOr
  let leftLevel :=
    if mixes left then Level.before
    else if op == .power then
      match left.bare with
      | .unary .. | .awaitValue .. => Level.call
      | _ => op.level
    else op.level - 1
  let rightLevel :=
    if mixes right then Level.before
    else if op.isRightFirst then op.level - 1
    else op.level
  (leftLevel, rightLevel)

/-- As what the left side of an assignment is laid out. -/
def targetSlot (around : Surround) : Node → Slot
  | .objectPattern .. | .arrayPattern .. => .target
  | _ => .value { Surround.tight Level.lowest with lead := around.lead }

/-- As what the head of a loop with a test is laid out. -/
def headSlot : Option Node → Slot
  | some (.varDeclaration ..) => .bare
  | _ => .loopHead

/-- As what the head of a loop over something is laid out. -/
def loopSlot : Node → Slot
  | .varDeclaration .. => .bare
  | .objectPattern .. | .arrayPattern .. => .target
  | _ => .loopHead

/-! ### Bodies -/

/-- Lines between braces, each with its end; no line where there is none. -/
def braced (setting : Setting) (lines : List Doc) : Doc :=
  if lines.isEmpty then "\x7b\x7d"
  else "\x7b\n" ++ Doc.concat lines ++ Doc.indent setting.depth ++ "\x7d"

/-- A directive. -/
def directiveLine (setting : Setting) (directive : Directive) : Doc :=
  setting.lineAt directive.span.start ++ directiveText directive.inside ++ ";\n"

/-- The first statement of a body without directives, if it is a string alone: it must not
    become a directive. -/
def looksLikeDirective (directives : List Directive) (statements : List Node) : Option StringValue :=
  match directives, statements with
  | [], .expression _ value :: _ =>
    match value.bare with
    | .literal _ (.string text _) => some text
    | _ => none
  | _, _ => none

/-- The lines of a body: its directives and its statements. -/
def bodyLines (setting : Setting) (directives : List Directive) (statements : List Node)
    (lines : List Doc) : List Doc :=
  directives.map (directiveLine setting) ++
  match looksLikeDirective directives statements with
  | some text => ("(" ++ stringText text ++ ");\n" : String) :: lines.drop 1
  | none => lines

/-- The body of a function between braces: its lines, and the comments before its closing
    brace. -/
def functionBraces (setting : Setting) (span : Span) (lines : List Doc) : Doc :=
  let closing := closingComments setting span
  if lines.isEmpty && closing.all fun comment => !comment.newlineBefore && !comment.newlineAfter then
    "\x7b" ++ before setting.depth closing ++ "\x7d"
  else
    "\x7b\n" ++ Doc.concat lines ++ before setting.deeper.depth closing ++
      Doc.indent setting.depth ++ "\x7d"

end Bundler.Script.Layout

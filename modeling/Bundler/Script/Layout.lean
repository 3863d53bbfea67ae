import Bundler.Emission
import Bundler.Script.Layout.Piece
import Bundler.Script.Parser
import Bundler.Script.Scope

/-!
# Layout

A classic script laid out for reading: a statement a line, blocks indented by tabs, strings
between double quotes, parentheses only where they are needed. Comments before statements,
elements of classes, cases and arguments are kept.

* `Node.layout`: a part of a script;
* `Script.format`: a script, or why it is none.
-/

namespace Bundler.Script

namespace Node

open Layout

mutual

/-- A part of a script, laid out. -/
def layout (setting : Setting) (slot : Slot) : Node → Doc
  | .name id => id.name
  | .self _ => "this"
  | .superRef _ => "super"
  | .literal _ value => literalText value
  | .template _ parts values => templateDoc parts (listLayout setting .whole values)
  | .tagged _ tag parts values =>
    let around := { Surround.tight Level.after with lead := slot.around.lead }
    tag.layout setting (.value around) ++ templateDoc parts (listLayout setting .whole values)
  | .array _ items =>
    arrayDoc setting items.getLast?
      (listLayout (if items.length ≤ 2 then setting else setting.deeper) .item items)
  | .hole _ => .empty
  | .spread _ value => "..." ++ value.layout setting .item
  | .object _ members =>
    Doc.wrapIf (slot.around.lead != .inside) (objectDoc setting
      (listLayout (if members.length ≤ 1 then setting else setting.deeper) .item members))
  | .property _ key value shorthand =>
    let text := value.layout setting slot
    if isShort slot key value shorthand then text else key.layout setting .item ++ ": " ++ text
  | .method span decorators isStatic kind key value =>
    setting.framed slot span.start
      (decoratorsDoc decorators (listLayout setting .whole decorators) ++
        Doc.onlyIf isStatic "static " ++ methodWords kind value ++
        key.layout setting .item ++ value.layout setting .method ++
        Doc.onlyIf (slot == .element) "\n")
  | .keyName id => id.name
  | .privateName id => "#" ++ id.name
  | .computed value => "[" ++ value.layout setting .item ++ "]"
  | .withDefault _ target value =>
    target.layout setting slot ++ " = " ++ value.layout setting .item
  | .objectPattern _ properties =>
    let parts := listLayout setting slot properties
    if slot == .target then "\x7b" ++ Doc.commas parts ++ "\x7d"
    else bindingObjectDoc properties.getLast? parts
  | .arrayPattern _ items =>
    "[" ++ Doc.commas (endedItems items.getLast? (listLayout setting slot items)) ++ "]"
  | .rest _ target => "..." ++ target.layout setting slot
  | .func span shape id _ params code =>
    let head := "(" ++ Doc.commas (listLayout setting .binding params) ++ ")"
    if slot == .method then head ++ " " ++ code.layout setting .bare
    else if shape.isArrow then
      let around := slot.around
      Doc.wrapIf (Level.assign ≤ around.level)
        (Doc.onlyIf shape.isAsync "async " ++ head ++ " => " ++
          code.layout setting (.value
            { Surround.tight Level.comma with lead := .arrow, noIn := around.noIn }))
    else
      quietLine setting slot span.start ++
      setting.declared slot span.start (Doc.wrapIf (slot.around.lead == .statement)
        (functionWords shape id ++ head ++ " " ++ code.layout setting .bare))
  | .body span directives statements =>
    functionBraces setting span
      (bodyLines setting.deeper directives statements
        (listLayout setting.deeper .statement statements))
  | .classDef span decorators id parent _ elements =>
    setting.declared slot span.start (Doc.wrapIf (slot.around.lead == .statement)
      (decoratorsDoc decorators (listLayout setting .whole decorators) ++
        "class" ++ nameAfter id ++
        Doc.onlyIf parent.isSome
          (" extends " ++ optionLayout setting (.operand Level.after) parent) ++
        " " ++ braced setting (listLayout setting.deeper .element elements)))
  | .field span decorators isStatic isAccessor key value =>
    setting.framed slot span.start
      (decoratorsDoc decorators (listLayout setting .whole decorators) ++
        Doc.onlyIf isStatic "static " ++ Doc.onlyIf isAccessor "accessor " ++
        key.layout setting .item ++
        Doc.onlyIf value.isSome (" = " ++ optionLayout setting .item value) ++ ";\n")
  | .staticBlock span statements =>
    setting.framed slot span.start
      ("static \x7b\n" ++ Doc.concat (listLayout setting.deeper .statement statements) ++
        Doc.indent setting.depth ++ "\x7d\n")
  | .unary _ op operand =>
    Doc.wrapIf (Level.before ≤ slot.around.level)
      (op.text ++ Doc.onlyIf (op.isWord || repeatsSign op operand) " " ++
        operand.layout setting (.operand Level.power))
  | .update _ increment isBefore operand =>
    let around := slot.around
    let sign := if increment then "++" else "--"
    if isBefore then
      Doc.wrapIf (Level.before ≤ around.level)
        (sign ++ operand.layout setting (.operand Level.before))
    else
      let wrap : Bool := Level.after ≤ around.level
      let inner := { Surround.tight Level.after with lead := (around.through wrap).lead }
      Doc.wrapIf wrap (operand.layout setting (.value inner) ++ sign)
  | .binary _ op left right =>
    let around := slot.around
    let wrap : Bool := op.level ≤ around.level || (op == .isIn && around.noIn)
    let inner := around.through wrap
    let (leftLevel, rightLevel) := operandLevels op left right
    Doc.wrapIf wrap
      (left.layout setting (.value { inner with level := leftLevel, noCall := false }) ++
        (" " ++ op.text ++ " ") ++
        right.layout setting (.value { Surround.tight rightLevel with noIn := inner.noIn }))
  | .conditional _ test yes no =>
    let around := slot.around
    let wrap : Bool := Level.conditional ≤ around.level
    let inner := around.through wrap
    Doc.wrapIf wrap
      (test.layout setting (.value { inner with level := Level.conditional, noCall := false }) ++
        " ? " ++ yes.layout setting (.operand Level.yielding) ++
        " : " ++ no.layout setting
          (.value { Surround.tight Level.yielding with noIn := inner.noIn }))
  | .assign _ op target value =>
    let around := slot.around
    let wrap : Bool := Level.assign ≤ around.level ||
      (around.lead != .inside && isObjectPattern target)
    Doc.wrapIf wrap
      (target.layout setting (targetSlot (around.through wrap) target) ++ assignmentText op ++
        value.layout setting (.value { Surround.tight Level.comma with noIn := around.noIn }))
  | .sequence _ items =>
    let around := slot.around
    let wrap : Bool := Level.comma ≤ around.level
    Doc.wrapIf wrap
      (Doc.commas (sequenceLayout setting (around.through wrap).lead around.noIn items))
  | .member _ owner key optional =>
    owner.layout setting
        (.value { slot.around with level := Level.after, noIn := false }) ++
      (if optional then "?." else if needsBlankBeforeDot owner then " ." else ".") ++
      key.layout setting .whole
  | .index _ owner key optional =>
    -- A statement that starts with the word `let` and a bracket is a declaration.
    Doc.wrapIf (isName "let" owner)
        (owner.layout setting
          (.value { slot.around with level := Level.after, noIn := false })) ++
      Doc.onlyIf optional "?." ++ "[" ++ key.layout setting .whole ++ "]"
  | .call span callee arguments optional isPure =>
    let around := slot.around
    let wrap : Bool := Level.making ≤ around.level || around.noCall ||
      (isPure && Level.after ≤ around.level)
    let inner := { Surround.tight Level.after with lead := (around.through wrap).lead }
    Doc.wrapIf wrap
      (Doc.onlyIf isPure pureMark ++ callee.layout setting (.value inner) ++
        Doc.onlyIf optional "?." ++
        argumentsDoc setting span arguments
          (listLayout (argumentSetting setting span arguments) .item arguments))
  | .chain _ value =>
    let around := slot.around
    let wrap : Bool := Level.after ≤ around.level
    Doc.wrapIf wrap (value.layout setting (.value (around.through wrap)))
  | .make span callee arguments isPure =>
    let level := slot.around.level
    Doc.wrapIf (Level.call ≤ level || (isPure && Level.after ≤ level))
      (Doc.onlyIf isPure pureMark ++ "new " ++
        callee.layout setting (.value { Surround.tight Level.making with noCall := true }) ++
        argumentsDoc setting span arguments
          (listLayout (argumentSetting setting span arguments) .item arguments))
  | .importCall span phase arguments =>
    let around := slot.around
    Doc.wrapIf (Level.making ≤ around.level || around.noCall)
      ("import" ++ Doc.concat (phase.toList.map fun phase => Doc.text ("." ++ phase)) ++
        argumentsDoc setting span arguments
          (listLayout (argumentSetting setting span arguments) .item arguments))
  | .metaProperty _ word key => word ++ "." ++ key
  | .yieldValue _ delegate value =>
    let around := slot.around
    Doc.wrapIf (Level.assign ≤ around.level)
      ((if delegate then "yield*" else "yield") ++
        Doc.onlyIf value.isSome (" " ++ optionLayout setting
          (.value { Surround.tight Level.yielding with noIn := around.noIn }) value))
  | .awaitValue _ value =>
    Doc.wrapIf (Level.before ≤ slot.around.level)
      ("await " ++ value.layout setting (.operand Level.power))
  | .paren _ value =>
    -- A function between parentheses is likely to be called at once, and keeps them.
    if isFunction value then "(" ++ value.layout setting .whole ++ ")"
    else value.layout setting slot
  | .expression span value =>
    setting.framed slot span.start
      (value.layout setting (.value { Surround.tight Level.lowest with lead := .statement }) ++
        ";\n")
  | .varDeclaration span kind declarators =>
    let text := variablesWord kind ++ " " ++
      Doc.commas (listLayout setting (if slot == .bare then .bare else .binding) declarators)
    if slot == .bare then text else setting.framed slot span.start (text ++ ";\n")
  | .declarator _ target value =>
    target.layout setting .binding ++
      Doc.onlyIf value.isSome (" = " ++ optionLayout setting
        (.value { Surround.tight Level.comma with noIn := slot == .bare }) value)
  | .block span statements =>
    let text := braced setting (listLayout setting.deeper .statement statements)
    match slot with
    | .statement => setting.framed slot span.start (text ++ "\n")
    | .body => " " ++ text ++ "\n"
    | _ => text
  | .empty span =>
    match slot with
    | .body => ";\n"
    | _ => setting.framed slot span.start ";\n"
  | .ifElse span test yes no =>
    let next : Doc := if no.isSome then " " else "\n"
    setting.framed slot span.start
      ("if (" ++ test.layout setting .whole ++ ")" ++
        (if isBlock yes then " " ++ yes.layout setting .bare ++ next
        else if dangles yes then
          " \x7b\n" ++ yes.layout setting.deeper .statement ++ Doc.indent setting.depth ++
            "\x7d" ++ next
        else yes.layout setting .body ++ Doc.onlyIf no.isSome (Doc.indent setting.depth)) ++
        Doc.onlyIf no.isSome
          ((if no.any isChoice then "else " else "else") ++
            optionLayout setting (if no.any isChoice then .bare else .body) no))
  | .forLoop span head test step code =>
    setting.framed slot span.start
      ("for (" ++ optionLayout setting (headSlot head) head ++ ";" ++
        Doc.onlyIf test.isSome (" " ++ optionLayout setting .whole test) ++ ";" ++
        Doc.onlyIf step.isSome (" " ++ optionLayout setting .whole step) ++ ")" ++
        code.layout setting .body)
  | .forIn span head value code =>
    setting.framed slot span.start
      ("for (" ++ head.layout setting (loopSlot head) ++ " in " ++ value.layout setting .whole ++
        ")" ++ code.layout setting .body)
  | .forOf span isAwait head value code =>
    -- A head that starts with the word `let` or `async` would be taken for something else.
    setting.framed slot span.start
      ((if isAwait then "for await (" else "for (") ++
        Doc.wrapIf (isName "let" head || (!isAwait && isName "async" head))
          (head.layout setting (loopSlot head)) ++
        " of " ++ value.layout setting .item ++ ")" ++ code.layout setting .body)
  | .whileLoop span test code =>
    setting.framed slot span.start
      ("while (" ++ test.layout setting .whole ++ ")" ++ code.layout setting .body)
  | .doWhile span code test =>
    setting.framed slot span.start
      ("do" ++
        (if isBlock code then " " ++ code.layout setting .bare ++ " "
        else "\n" ++ code.layout setting.deeper .statement ++ Doc.indent setting.depth) ++
        "while (" ++ test.layout setting .whole ++ ");\n")
  | .continueTo span label => setting.framed slot span.start ("continue" ++ nameAfter label ++ ";\n")
  | .breakOut span label => setting.framed slot span.start ("break" ++ nameAfter label ++ ";\n")
  | .returnValue span value =>
    setting.framed slot span.start
      ("return" ++ Doc.onlyIf value.isSome (" " ++ optionLayout setting .whole value) ++ ";\n")
  | .withObject span scope code =>
    setting.framed slot span.start
      ("with(" ++ scope.layout setting .whole ++ ")" ++ code.layout setting .body)
  | .switchOn span value cases =>
    setting.framed slot span.start
      ("switch (" ++ value.layout setting .whole ++ ") " ++
        braced setting (listLayout setting.deeper .element cases) ++ "\n")
  | .case span test statements =>
    setting.framed slot span.start
      ((if test.isSome then "case " ++ optionLayout setting .whole test else "default") ++ ":" ++
        if statements.length = 1 then Doc.concat (listLayout setting .body statements)
        else "\n" ++ Doc.concat (listLayout setting.deeper .statement statements))
  | .labeled span label code =>
    setting.framed slot span.start (label.name ++ ":" ++ code.layout setting .body)
  | .throwValue span value =>
    setting.framed slot span.start ("throw " ++ value.layout setting .whole ++ ";\n")
  | .tryCatch span code caught always =>
    setting.framed slot span.start
      ("try " ++ code.layout setting .bare ++
        optionLayout setting .bare caught ++
        Doc.onlyIf always.isSome (" finally " ++ optionLayout setting .bare always) ++ "\n")
  | .handler _ param code =>
    " catch" ++
      Doc.onlyIf param.isSome (" (" ++ optionLayout setting .binding param ++ ")") ++
      " " ++ code.layout setting .bare
  | .debugger span => setting.framed slot span.start "debugger;\n"

/-- Parts of a script, each laid out. -/
def listLayout (setting : Setting) (slot : Slot) : List Node → List Doc
  | [] => []
  | node :: more => node.layout setting slot :: listLayout setting slot more

/-- Expressions with commas between them, of which the first one stands at the start of
    something. -/
def sequenceLayout (setting : Setting) (lead : Lead) (noIn : Bool) : List Node → List Doc
  | [] => []
  | node :: more =>
    node.layout setting (.value { Surround.tight Level.lowest with lead, noIn }) ::
      sequenceLayout setting .inside noIn more

/-- A part of a script, if it is there. -/
def optionLayout (setting : Setting) (slot : Slot) : Option Node → Doc
  | none => .empty
  | some node => node.layout setting slot

end

end Node

/-! ### Scripts -/

namespace Layout

/-- The statements at the top of a script. -/
def statementsOf (body : List TopLevel) : List Node :=
  body.filterMap fun statement =>
    match statement with
    | .statement node => some node
    | _ => none

/-- A script, laid out, with the line that says what runs it. -/
def script (runner : Option (List Char)) (program : Program) : Doc :=
  let setting : Setting := { comments := program.comments, depth := 0 }
  let statements := statementsOf program.body
  let lines := bodyLines setting program.directives statements
    (Node.listLayout setting .statement statements)
  Doc.concat (runner.toList.map fun line => Doc.text (String.ofList line ++ "\n")) ++
    Doc.concat lines ++ before 0 (setting.keptAt program.stop)

end Layout

/-- Lays out a script, if it is one. -/
def format : Formatter := fun source => do
  let program ← (Program.read .script source).mapError fun issue => .malformed issue.text
  match (Analysis.ofOccurrences (program.occurrences .script)).issue? with
  | some issue => throw (.malformed issue.text)
  | none => return (Layout.script (Parser.runnerLine source.toList).1 program).render

end Bundler.Script

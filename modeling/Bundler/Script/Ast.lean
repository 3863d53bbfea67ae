import Bundler.Script.Token

/-!
# The tree of a script

What a script or a module consists of, by meaning: expressions, patterns, functions,
classes, statements, and the declarations by which modules import and export. Every
part knows where it stands. Parentheses are kept, since they tell apart what is an
assignment target and what is not, and how a function is called.
-/

namespace Bundler.Script

/-- A name at a place, free of escapes. -/
structure Ident where
  /-- The name. -/
  name : String
  /-- Where it stands. -/
  span : Span
  deriving DecidableEq, Repr, Inhabited

/-- The operators before an operand. -/
inductive UnaryOp where
  /-- The operator `-`. -/
  | minus
  /-- The operator `+`. -/
  | plus
  /-- The operator `!`. -/
  | not
  /-- The operator `~`. -/
  | complement
  /-- The operator `typeof`. -/
  | typeOf
  /-- The operator `void`. -/
  | void
  /-- The operator `delete`. -/
  | delete
  deriving DecidableEq, Repr, Inhabited

/-- The operators between two operands, short-circuiting ones included. -/
inductive BinaryOp where
  /-- The operator `??`. -/
  | nullish
  /-- The operator `||`. -/
  | or
  /-- The operator `&&`. -/
  | and
  /-- The operator `|`. -/
  | bitOr
  /-- The operator `^`. -/
  | bitXor
  /-- The operator `&`. -/
  | bitAnd
  /-- The operator `==`. -/
  | equal
  /-- The operator `!=`. -/
  | notEqual
  /-- The operator `===`. -/
  | same
  /-- The operator `!==`. -/
  | notSame
  /-- The operator `<`. -/
  | less
  /-- The operator `>`. -/
  | greater
  /-- The operator `<=`. -/
  | lessEqual
  /-- The operator `>=`. -/
  | greaterEqual
  /-- The operator `instanceof`. -/
  | instanceOf
  /-- The operator `in`. -/
  | isIn
  /-- The operator `<<`. -/
  | shiftLeft
  /-- The operator `>>`. -/
  | shiftRight
  /-- The operator `>>>`. -/
  | shiftRightZero
  /-- The operator `+`. -/
  | plus
  /-- The operator `-`. -/
  | minus
  /-- The operator `*`. -/
  | times
  /-- The operator `/`. -/
  | divide
  /-- The operator `%`. -/
  | remainder
  /-- The operator `**`. -/
  | power
  deriving DecidableEq, Repr, Inhabited

/-- A value that is written out. -/
inductive Literal where
  /-- The value `null`. -/
  | nothing
  /-- A truth value. -/
  | bool (value : Bool)
  /-- A number, as it is written. -/
  | number (written : List Char)
  /-- A big integer, as it is written, with its suffix. -/
  | bigint (written : List Char)
  /-- A string, with its value and as it is written. -/
  | string (value : StringValue) (written : List Char)
  /-- A regular expression: its body and its flags. -/
  | regex (body flags : List Char)
  deriving DecidableEq, Repr, Inhabited

/-- What a method of a class or an object is. -/
inductive MethodKind where
  /-- A plain method. -/
  | method
  /-- A method that gives the value of a property. -/
  | getter
  /-- A method that takes the value of a property. -/
  | setter
  /-- The method that makes the objects of a class. -/
  | maker
  deriving DecidableEq, Repr, Inhabited

/-- What a declaration of variables starts with. -/
inductive VarKind where
  /-- The word `var`. -/
  | var
  /-- The word `let`. -/
  | lexical
  /-- The word `const`. -/
  | constant
  /-- The word `using`. -/
  | resource
  /-- The words `await using`. -/
  | awaitedResource
  deriving DecidableEq, Repr, Inhabited

/-- A statement at the start of a body that is a string alone. -/
structure Directive where
  /-- Where the statement stands. -/
  span : Span
  /-- Where the string stands. -/
  literal : Span
  /-- The string as it is written, without its quotes. -/
  inside : List Char
  deriving DecidableEq, Repr, Inhabited

/-- What kind of function a function is. -/
structure FunctionShape where
  /-- Whether it may wait. -/
  isAsync : Bool
  /-- Whether it hands out values. -/
  isGenerator : Bool
  /-- Whether it is an arrow function. -/
  isArrow : Bool
  deriving DecidableEq, Repr, Inhabited

/-- A part of a script: an expression, a pattern, a member of an object or a class, or a
    statement. -/
inductive Node where
  /-- A name: a reference, or in a pattern what is bound or assigned to. -/
  | name (id : Ident)
  /-- The word `this`. -/
  | self (span : Span)
  /-- The word `super`, before a property or arguments. -/
  | superRef (span : Span)
  /-- A literal. -/
  | literal (span : Span) (value : Literal)
  /-- A template: the texts between its expressions, as they are written, and those. -/
  | template (span : Span) (parts : List (List Char)) (values : List Node)
  /-- A template with the function that makes a value of it. -/
  | tagged (span : Span) (tag : Node) (parts : List (List Char)) (values : List Node)
  /-- An array. -/
  | array (span : Span) (items : List Node)
  /-- No element, in an array or a pattern of one. -/
  | hole (offset : Nat)
  /-- All elements or properties of a value. -/
  | spread (span : Span) (value : Node)
  /-- An object. -/
  | object (span : Span) (members : List Node)
  /-- A property with its value, or in a pattern its target. A shorthand has the name of
      its value. -/
  | property (span : Span) (key value : Node) (shorthand : Bool)
  /-- A method of an object, or of a class with its decorators. -/
  | method (span : Span) (decorators : List Node) (isStatic : Bool) (kind : MethodKind)
    (key value : Node)
  /-- A key that is a name. -/
  | keyName (id : Ident)
  /-- A key that is a private name. -/
  | privateName (id : Ident)
  /-- A key that is the value of an expression. -/
  | computed (value : Node)
  /-- A target with a default for a missing value. In an object it stands for a shorthand
      with a default, which only a pattern may have. -/
  | withDefault (span : Span) (target value : Node)
  /-- A pattern for the properties of an object. -/
  | objectPattern (span : Span) (properties : List Node)
  /-- A pattern for the elements of an array. -/
  | arrayPattern (span : Span) (items : List Node)
  /-- In a pattern, or among parameters, all that is left. -/
  | rest (span : Span) (target : Node)
  /-- A function: its name, where its parameters stand, the parameters, and its body, which
      for an arrow function may be an expression. -/
  | func (span : Span) (shape : FunctionShape) (id : Option Ident) (paramsSpan : Span)
    (params : List Node) (body : Node)
  /-- The body of a function. -/
  | body (span : Span) (directives : List Directive) (statements : List Node)
  /-- A class: its decorators, its name, the class it extends, where its elements stand,
      and those. -/
  | classDef (span : Span) (decorators : List Node) (id : Option Ident) (parent : Option Node)
    (bodySpan : Span) (elements : List Node)
  /-- A field of a class, or a pair of accessors. -/
  | field (span : Span) (decorators : List Node) (isStatic isAccessor : Bool) (key : Node)
    (value : Option Node)
  /-- Statements that run when a class is made. -/
  | staticBlock (span : Span) (statements : List Node)
  /-- An operator before its operand. -/
  | unary (span : Span) (op : UnaryOp) (operand : Node)
  /-- An increment, or a decrement, before or after its operand. -/
  | update (span : Span) (increment before : Bool) (operand : Node)
  /-- An operator between its operands. -/
  | binary (span : Span) (op : BinaryOp) (left right : Node)
  /-- A choice between two expressions. -/
  | conditional (span : Span) (test yes no : Node)
  /-- An assignment; the operator is none for a plain one. -/
  | assign (span : Span) (op : Option BinaryOp) (target value : Node)
  /-- Expressions with commas between them. -/
  | sequence (span : Span) (items : List Node)
  /-- A property by its name, which may be private. -/
  | member (span : Span) (object property : Node) (optional : Bool)
  /-- A property by the value of an expression. -/
  | index (span : Span) (object property : Node) (optional : Bool)
  /-- A call, and whether it is marked as one without effects. -/
  | call (span : Span) (callee : Node) (arguments : List Node) (optional pure : Bool)
  /-- A chain of properties and calls that ends early where an optional one fails. -/
  | chain (span : Span) (value : Node)
  /-- The making of an object, and whether it is marked as one without effects. -/
  | make (span : Span) (callee : Node) (arguments : List Node) (pure : Bool)
  /-- A module asked for while the program runs, with a phase if one is named. -/
  | importCall (span : Span) (phase : Option String) (arguments : List Node)
  /-- A property of the word `new` or `import`. -/
  | metaProperty (span : Span) (word property : String)
  /-- A value handed out by a generator, or all of another one's. -/
  | yieldValue (span : Span) (delegate : Bool) (value : Option Node)
  /-- A value waited for. -/
  | awaitValue (span : Span) (value : Node)
  /-- An expression between parentheses. -/
  | paren (span : Span) (value : Node)
  /-- A statement that is an expression. -/
  | expression (span : Span) (value : Node)
  /-- A declaration of variables. -/
  | varDeclaration (span : Span) (kind : VarKind) (declarators : List Node)
  /-- A variable that is declared, with its first value. -/
  | declarator (span : Span) (target : Node) (value : Option Node)
  /-- A block. -/
  | block (span : Span) (statements : List Node)
  /-- A semicolon alone. -/
  | empty (span : Span)
  /-- A choice. -/
  | ifElse (span : Span) (test yes : Node) (no : Option Node)
  /-- A loop with a head, a test, and a step. -/
  | forLoop (span : Span) (head test update : Option Node) (body : Node)
  /-- A loop over the names of properties. -/
  | forIn (span : Span) (head value body : Node)
  /-- A loop over values, which may wait for them. -/
  | forOf (span : Span) (isAwait : Bool) (head value body : Node)
  /-- A loop with its test before its body. -/
  | whileLoop (span : Span) (test body : Node)
  /-- A loop with its test after its body. -/
  | doWhile (span : Span) (body test : Node)
  /-- A step to the end of a loop's round. -/
  | continueTo (span : Span) (label : Option Ident)
  /-- A step out of a statement. -/
  | breakOut (span : Span) (label : Option Ident)
  /-- The end of a function. -/
  | returnValue (span : Span) (value : Option Node)
  /-- A statement with an object's properties in scope. -/
  | withObject (span : Span) (object body : Node)
  /-- A choice among cases. -/
  | switchOn (span : Span) (value : Node) (cases : List Node)
  /-- A case with its test, none for the default one. -/
  | case (span : Span) (test : Option Node) (statements : List Node)
  /-- A statement with a label. -/
  | labeled (span : Span) (label : Ident) (body : Node)
  /-- An error that is raised. -/
  | throwValue (span : Span) (value : Node)
  /-- Statements with what is done about an error, and what is done in any case. -/
  | tryCatch (span : Span) (block : Node) (handler finalizer : Option Node)
  /-- What is done about an error. -/
  | handler (span : Span) (param : Option Node) (block : Node)
  /-- A stop for a person who looks for a fault. -/
  | debugger (span : Span)
  deriving Inhabited

namespace Node

/-- Where a part of a script stands. -/
def span : Node → Span
  | .name id | .keyName id | .privateName id => id.span
  | .hole offset => ⟨offset, offset⟩
  | .computed value => value.span
  | .self s | .superRef s | .literal s _ | .template s _ _ | .tagged s _ _ _ | .array s _
  | .spread s _ | .object s _ | .property s _ _ _ | .method s _ _ _ _ _ | .withDefault s _ _
  | .objectPattern s _ | .arrayPattern s _ | .rest s _ | .func s _ _ _ _ _ | .body s _ _
  | .classDef s _ _ _ _ _ | .field s _ _ _ _ _ | .staticBlock s _ | .unary s _ _
  | .update s _ _ _ | .binary s _ _ _ | .conditional s _ _ _ | .assign s _ _ _ | .sequence s _
  | .member s _ _ _ | .index s _ _ _ | .call s _ _ _ _ | .chain s _ | .make s _ _ _
  | .importCall s _ _ | .metaProperty s _ _ | .yieldValue s _ _ | .awaitValue s _ | .paren s _
  | .expression s _ | .varDeclaration s _ _ | .declarator s _ _ | .block s _ | .empty s
  | .ifElse s _ _ _ | .forLoop s _ _ _ _ | .forIn s _ _ _ | .forOf s _ _ _ _ | .whileLoop s _ _
  | .doWhile s _ _ | .continueTo s _ | .breakOut s _ | .returnValue s _ | .withObject s _ _
  | .switchOn s _ _ | .case s _ _ | .labeled s _ _ | .throwValue s _ | .tryCatch s _ _ _
  | .handler s _ _ | .debugger s => s

/-- The offset at which a part of a script starts. -/
def start (node : Node) : Nat :=
  node.span.start

/-- An expression without the parentheses around it. -/
def bare : Node → Node
  | .paren _ value => value.bare
  | node => node

end Node

/-! ### Modules -/

/-- A name by which a module imports or exports: an identifier, or any text. -/
structure ModuleName where
  /-- The name. -/
  name : String
  /-- Where it stands. -/
  span : Span
  /-- Whether it is written as a string. -/
  quoted : Bool
  deriving DecidableEq, Repr, Inhabited

/-- A binding that is imported. -/
inductive ImportSpecifier where
  /-- The default export. -/
  | defaultExport (id : Ident)
  /-- All exports as one object. -/
  | wholeModule (id : Ident)
  /-- An export by its name. -/
  | named (imported : ModuleName) (id : Ident)
  deriving DecidableEq, Repr, Inhabited

/-- The text that names another module. -/
structure Source where
  /-- The text. -/
  value : StringValue
  /-- Where it stands. -/
  span : Span
  deriving DecidableEq, Repr, Inhabited

/-- A name under which a binding is exported. -/
structure ExportSpecifier where
  /-- The binding, or the name in another module. -/
  source : ModuleName
  /-- The name for others. -/
  exported : ModuleName
  deriving DecidableEq, Repr, Inhabited

/-- A statement at the top of a script or module. -/
inductive TopLevel where
  /-- A statement. -/
  | statement (value : Node)
  /-- An import; the list is none where no binding is asked for. -/
  | importFrom (span : Span) (specifiers : Option (List ImportSpecifier)) (source : Source)
  /-- An export of a declaration. -/
  | exportDeclaration (span : Span) (declaration : Node)
  /-- An export of bindings, of this module or of another one. -/
  | exportNames (span : Span) (specifiers : List ExportSpecifier) (source : Option Source)
  /-- A default export: a function or a class, which may have no name, or the value of an
      expression. -/
  | exportDefault (span : Span) (value : Node)
  /-- An export of all that another module exports, or of one object that has it. -/
  | exportAll (span : Span) (exported : Option ModuleName) (source : Source)

/-- A script or a module. -/
structure Program where
  /-- The line at the start that says what runs the script. -/
  hashbang : Option Span
  /-- The directives. -/
  directives : List Directive
  /-- The statements. -/
  body : List TopLevel
  /-- The comments, with the offsets of the tokens that they belong to. -/
  comments : List (Nat × Comment)
  /-- The offset of the end. -/
  stop : Nat

end Bundler.Script

import Bundler.Script.Ast

/-!
# Operators

How operators are written, and how tight they bind: an operator of a higher level takes
its operands first. The levels of other constructs are among them, so that a printer can
tell where parentheses are needed.
-/

namespace Bundler.Script

/-- How tight a construct binds. -/
abbrev Level := Nat

namespace Level

/-- Any expression. -/
def lowest : Level := 0

/-- Expressions with commas between them. -/
def comma : Level := 1

/-- A value handed out. -/
def yielding : Level := 3

/-- An assignment, or an arrow function. -/
def assign : Level := 4

/-- A choice between two expressions. -/
def conditional : Level := 5

/-- The operator `in`, and those like it. -/
def compare : Level := 13

/-- The operator `**`. -/
def power : Level := 17

/-- An operator before its operand. -/
def before : Level := 18

/-- An operator after its operand. -/
def after : Level := 19

/-- The making of an object. -/
def making : Level := 20

/-- A call. -/
def call : Level := 21

/-- A property. -/
def member : Level := 22

end Level

namespace BinaryOp

/-- How tight an operator binds. -/
def level : BinaryOp → Level
  | nullish => 6
  | or => 7
  | and => 8
  | bitOr => 9
  | bitXor => 10
  | bitAnd => 11
  | equal | notEqual | same | notSame => 12
  | less | greater | lessEqual | greaterEqual | instanceOf | isIn => Level.compare
  | shiftLeft | shiftRight | shiftRightZero => 14
  | plus | minus => 15
  | times | divide | remainder => 16
  | power => Level.power

/-- How an operator is written. -/
def text : BinaryOp → String
  | nullish => "??"
  | or => "||"
  | and => "&&"
  | bitOr => "|"
  | bitXor => "^"
  | bitAnd => "&"
  | equal => "=="
  | notEqual => "!="
  | same => "==="
  | notSame => "!=="
  | less => "<"
  | greater => ">"
  | lessEqual => "<="
  | greaterEqual => ">="
  | instanceOf => "instanceof"
  | isIn => "in"
  | shiftLeft => "<<"
  | shiftRight => ">>"
  | shiftRightZero => ">>>"
  | plus => "+"
  | minus => "-"
  | times => "*"
  | divide => "/"
  | remainder => "%"
  | power => "**"

/-- Whether an operator takes its right operand first: `a ** b ** c` is `a ** (b ** c)`. -/
def isRightFirst : BinaryOp → Bool
  | power => true
  | _ => false

/-- Whether an operator evaluates its right operand only where it needs it. -/
def isShort : BinaryOp → Bool
  | nullish | or | and => true
  | _ => false

/-- The operator that a punctuator stands for. -/
def ofPunct? : Punct → Option BinaryOp
  | .nullish => some nullish
  | .orOr => some or
  | .andAnd => some and
  | .bar => some bitOr
  | .caret => some bitXor
  | .ampersand => some bitAnd
  | .equal => some equal
  | .notEqual => some notEqual
  | .same => some same
  | .notSame => some notSame
  | .less => some less
  | .greater => some greater
  | .lessEqual => some lessEqual
  | .greaterEqual => some greaterEqual
  | .shiftLeft => some shiftLeft
  | .shiftRight => some shiftRight
  | .shiftRightZero => some shiftRightZero
  | .plus => some plus
  | .minus => some minus
  | .star => some times
  | .slash => some divide
  | .percent => some remainder
  | .power => some power
  | _ => none

/-- The operator of an assignment that a punctuator stands for; a plain assignment has
    none. -/
def ofAssignment? : Punct → Option (Option BinaryOp)
  | .assign => some none
  | .plusAssign => some (some plus)
  | .minusAssign => some (some minus)
  | .starAssign => some (some times)
  | .slashAssign => some (some divide)
  | .percentAssign => some (some remainder)
  | .powerAssign => some (some power)
  | .shiftLeftAssign => some (some shiftLeft)
  | .shiftRightAssign => some (some shiftRight)
  | .shiftRightZeroAssign => some (some shiftRightZero)
  | .ampersandAssign => some (some bitAnd)
  | .barAssign => some (some bitOr)
  | .caretAssign => some (some bitXor)
  | .andAndAssign => some (some and)
  | .orOrAssign => some (some or)
  | .nullishAssign => some (some nullish)
  | _ => none

end BinaryOp

namespace UnaryOp

/-- How an operator is written. -/
def text : UnaryOp → String
  | minus => "-"
  | plus => "+"
  | not => "!"
  | complement => "~"
  | typeOf => "typeof"
  | void => "void"
  | delete => "delete"

/-- Whether an operator is written as a word. -/
def isWord : UnaryOp → Bool
  | typeOf | void | delete => true
  | _ => false

/-- The operator that a token stands for. -/
def ofToken? (kind : TokenKind) : Option UnaryOp :=
  match kind with
  | .punct .minus => some minus
  | .punct .plus => some plus
  | .punct .bang => some not
  | .punct .tilde => some complement
  | .name "typeof" false => some typeOf
  | .name "void" false => some void
  | .name "delete" false => some delete
  | _ => none

end UnaryOp

/-- Whether an expression is one of the operators `&&` and `||`, which must not be mixed with the
    operator `??`. -/
def Node.isAndOr : Node → Bool
  | .binary _ .and _ _ | .binary _ .or _ _ => true
  | _ => false

end Bundler.Script

import Bundler.Script.Unicode

/-!
# What scripts are made of

A text is read as a classic script or as a module, and may have something wrong with it. The
characters that mean something to the lexical grammar are blanks, line terminators, digits, and those
of identifiers. Of the words, some are never names, and some are not where code is strict.

A bundle runs all modules at once and in one text, and a module has no text of its own in it. So it
has no means for some constructs of a module (`Unsupported`).
-/

namespace Bundler

/-- What in a module the loader has no means for. -/
inductive Unsupported where
  /-- A module asked for while the program runs. -/
  | dynamicImport
  /-- A module body that waits. -/
  | topLevelAwait
  /-- A module body that waits in a loop. -/
  | topLevelForAwait
  /-- The module asked about itself. -/
  | importMeta
  deriving DecidableEq, Repr

namespace Unsupported

/-- The words for an unsupported construct. -/
def message : Unsupported → String
  | .dynamicImport => "dynamic import() is not supported, bundles are a single chunk"
  | .topLevelAwait => "top-level await is not supported, module factories are synchronous"
  | .topLevelForAwait => "top-level for await is not supported, module factories are synchronous"
  | .importMeta => "import.meta is not available inside a bundle"

end Unsupported

namespace Script

/-! ### Goals and issues -/

/-- What a text is read as. A module has no comments in the form of markup. -/
inductive Goal where
  /-- A classic script. -/
  | script
  /-- A module. -/
  | module
  deriving DecidableEq, Repr

/-- Something wrong with a script. -/
structure Issue where
  /-- The byte offset that the issue is about. -/
  offset : Nat
  /-- What is wrong. -/
  text : String
  deriving DecidableEq, Repr

/-! ### Classes of characters -/

/-- The characters that end a line: LF, CR, and the line and paragraph separators. -/
def isLineEnd (c : Char) : Bool :=
  c == '\n' || c == '\r' || c == '\u2028' || c == '\u2029'

/-- The characters that stand between tokens without ending a line. -/
def isGap (c : Char) : Bool :=
  let n := c.toNat
  n == 0x20 || n == 0x09 || n == 0x0B || n == 0x0C || n == 0x85 || n == 0xA0 || n == 0xFEFF ||
    n == 0x1680 || (0x2000 ≤ n && n ≤ 0x200B) || n == 0x202F || n == 0x205F || n == 0x3000

/-- Whether an identifier may start with a character. -/
def isNameStart (c : Char) : Bool :=
  if c.toNat < 128 then c.isAlpha || c == '$' || c == '_' else Unicode.isIdStart c

/-- Whether an identifier may go on with a character. -/
def isNamePart (c : Char) : Bool :=
  if c.toNat < 128 then c.isAlphanum || c == '$' || c == '_' else Unicode.isIdContinue c

/-- The decimal digits. -/
def isDecimal (c : Char) : Bool :=
  '0' ≤ c && c ≤ '9'

/-- The digits of a base. -/
def isDigitOf (base : Nat) (c : Char) : Bool :=
  let n := c.toNat
  let value :=
    if 48 ≤ n ∧ n ≤ 57 then n - 48
    else if 97 ≤ n ∧ n ≤ 102 then n - 87
    else if 65 ≤ n ∧ n ≤ 70 then n - 55
    else 16
  value < base

/-- The value of a digit of any base up to sixteen. -/
def digitValue (c : Char) : Nat :=
  let n := c.toNat
  if n ≤ 57 then n - 48 else if n ≤ 70 then n - 55 else n - 87

/-! ### Words -/

/-- The words that are never names. -/
def reservedWords : List String :=
  ["break", "case", "catch", "class", "const", "continue", "debugger", "default", "delete", "do",
    "else", "enum", "export", "extends", "false", "finally", "for", "function", "if", "import",
    "in", "instanceof", "new", "null", "return", "super", "switch", "this", "throw", "true", "try",
    "typeof", "var", "void", "while", "with"]

/-- Whether a word is never a name. -/
def isReserved (word : String) : Bool :=
  reservedWords.contains word

/-- The words that are no names in strict code. -/
def strictWords : List String :=
  ["implements", "interface", "let", "package", "private", "protected", "public", "static", "yield"]

/-- Whether a word is no name in strict code. -/
def isStrictReserved (word : String) : Bool :=
  strictWords.contains word

end Script

end Bundler

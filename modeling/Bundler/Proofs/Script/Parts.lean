import Bundler.Script.Occurrence

/-!
# The parts of a script

A part of a script consists of parts of its own. The code of a function is kept apart from the
others: it does not run where the function stands. So what is in a part of a script is in it at
some depth, or even outside of all functions' bodies.

* `Node.parts`, `Node.code?`: the parts of which a part consists, and the code of a function;
* `Node.Holds`, `Node.HoldsOutside`: what is in a part, and what is in it outside of bodies;
* `Node.hasUnsupported_occurrences`: when the walk meets something that a bundle has no means for.
-/

namespace Bundler.Script

namespace Node

/-- The parts of which a part of a script consists, in order, without the code of a function. A
    shorthand has no key of its own. -/
def parts : Node → List Node
  | .name _ | .self _ | .superRef _ | .literal .. | .hole _ | .keyName _ | .privateName _
  | .metaProperty .. | .empty _ | .continueTo .. | .breakOut .. | .debugger _ => []
  | .template _ _ values => values
  | .tagged _ tag _ values => tag :: values
  | .array _ items => items
  | .spread _ value => [value]
  | .object _ members => members
  | .property _ key value shorthand => if shorthand then [value] else [key, value]
  | .method _ decorators _ _ key value => decorators ++ [key, value]
  | .computed value => [value]
  | .withDefault _ target value => [target, value]
  | .objectPattern _ properties => properties
  | .arrayPattern _ items => items
  | .rest _ target => [target]
  | .func _ _ _ _ params _ => params
  | .body _ _ statements => statements
  | .classDef _ decorators _ parent _ elements => decorators ++ parent.toList ++ elements
  | .field _ decorators _ _ key value => decorators ++ key :: value.toList
  | .staticBlock _ statements => statements
  | .unary _ _ operand => [operand]
  | .update _ _ _ operand => [operand]
  | .binary _ _ left right => [left, right]
  | .conditional _ test yes no => [test, yes, no]
  | .assign _ _ target value => [target, value]
  | .sequence _ items => items
  | .member _ owner key _ => [owner, key]
  | .index _ owner key _ => [owner, key]
  | .call _ callee arguments _ _ => callee :: arguments
  | .chain _ value => [value]
  | .make _ callee arguments _ => callee :: arguments
  | .importCall _ _ arguments => arguments
  | .yieldValue _ _ value => value.toList
  | .awaitValue _ value => [value]
  | .paren _ value => [value]
  | .expression _ value => [value]
  | .varDeclaration _ _ declarators => declarators
  | .declarator _ target value => target :: value.toList
  | .block _ statements => statements
  | .ifElse _ test yes no => test :: yes :: no.toList
  | .forLoop _ head test step code => head.toList ++ test.toList ++ step.toList ++ [code]
  | .forIn _ head value code => [head, value, code]
  | .forOf _ _ head value code => [head, value, code]
  | .whileLoop _ test code => [test, code]
  | .doWhile _ code test => [code, test]
  | .returnValue _ value => value.toList
  | .withObject _ scope code => [scope, code]
  | .switchOn _ value cases => value :: cases
  | .case _ test statements => test.toList ++ statements
  | .labeled _ _ code => [code]
  | .throwValue _ value => [value]
  | .tryCatch _ code caught always => code :: (caught.toList ++ always.toList)
  | .handler _ param code => param.toList ++ [code]

/-- The code of a function. -/
def code? : Node → Option Node
  | .func _ _ _ _ _ code => some code
  | _ => none

theorem sizeOf_lt_of_mem_parts {node part : Node} (h : part ∈ node.parts) :
    sizeOf part < sizeOf node := by
  have hlist {nodes : List Node} (h : part ∈ nodes) : sizeOf part < sizeOf nodes :=
    List.sizeOf_lt_of_mem h
  have hoption {node : Option Node} (h : part ∈ node.toList) : sizeOf part < sizeOf node := by
    obtain rfl := Option.mem_toList.1 h
    simp
  cases node <;> simp only [parts] at h
  all_goals grind

theorem sizeOf_lt_of_code? {node code : Node} (h : node.code? = some code) :
    sizeOf code < sizeOf node := by
  cases node <;> cases h
  rw [func.sizeOf_spec]
  omega

/-- What holds of a part of a script if it holds of its own parts holds of all. -/
@[elab_as_elim]
theorem inductionOnParts {motive : Node → Prop}
    (h : ∀ node, (∀ part ∈ node.parts, motive part) →
      (∀ code, node.code? = some code → motive code) → motive node) (node : Node) : motive node :=
  h node (fun part hpart =>
    have := sizeOf_lt_of_mem_parts hpart
    inductionOnParts h part) fun code hcode =>
    have := sizeOf_lt_of_code? hcode
    inductionOnParts h code
termination_by sizeOf node

/-- A part of a script is in another one, at some depth. -/
inductive Holds : Node → Node → Prop where
  | self (node : Node) : Holds node node
  | part {node part inner : Node} (hpart : part ∈ node.parts) (h : Holds part inner) :
    Holds node inner
  | code {node code inner : Node} (hcode : node.code? = some code) (h : Holds code inner) :
    Holds node inner

/-- A part of a script is in another one, and not in the body of a function there. -/
inductive HoldsOutside : Node → Node → Prop where
  | self (node : Node) : HoldsOutside node node
  | part {node part inner : Node} (hpart : part ∈ node.parts) (h : HoldsOutside part inner) :
    HoldsOutside node inner

/-- Whether a part of a script asks for a module while it runs, or about the module itself. -/
def asksLoader : Node → Bool
  | .importCall .. => true
  | .metaProperty _ word _ => word == "import"
  | _ => false

/-- Whether a part of a script waits for a value: an expression, or a loop over values. -/
def waits : Node → Bool
  | .awaitValue .. => true
  | .forOf _ isAwait .. => isAwait
  | _ => false

/-- A part of a script that stands inside of a body or not has something in it that a bundle has no
    means for: at whatever depth what asks for a module, and outside of all bodies what waits. -/
def Needs (inBody : Bool) (node : Node) : Prop :=
  (∃ inner, node.Holds inner ∧ inner.asksLoader = true) ∨
    inBody = false ∧ ∃ inner, node.HoldsOutside inner ∧ inner.waits = true

/-- It is such a thing itself, or has one in its parts or its code. -/
theorem needs_iff {inBody : Bool} {node : Node} :
    node.Needs inBody ↔ node.asksLoader = true ∨ (inBody = false ∧ node.waits = true) ∨
      (∃ part ∈ node.parts, part.Needs inBody) ∨
      ∃ code, node.code? = some code ∧ code.Needs true := by
  constructor
  · rintro (⟨inner, hheld, hasks⟩ | ⟨rfl, inner, hheld, hwaits⟩)
    · cases hheld with
      | self => exact .inl hasks
      | part hpart h => exact .inr (.inr (.inl ⟨_, hpart, .inl ⟨inner, h, hasks⟩⟩))
      | code hcode h => exact .inr (.inr (.inr ⟨_, hcode, .inl ⟨inner, h, hasks⟩⟩))
    · cases hheld with
      | self => exact .inr (.inl ⟨rfl, hwaits⟩)
      | part hpart h => exact .inr (.inr (.inl ⟨_, hpart, .inr ⟨rfl, inner, h, hwaits⟩⟩))
  · rintro (hasks | ⟨hbody, hwaits⟩ | ⟨part, hpart, hneeds⟩ | ⟨code, hcode, hneeds⟩)
    · exact .inl ⟨node, .self node, hasks⟩
    · exact .inr ⟨hbody, node, .self node, hwaits⟩
    · rcases hneeds with ⟨inner, hheld, hasks⟩ | ⟨hbody, inner, hheld, hwaits⟩
      · exact .inl ⟨inner, .part hpart hheld, hasks⟩
      · exact .inr ⟨hbody, inner, .part hpart hheld, hwaits⟩
    · rcases hneeds with ⟨inner, hheld, hasks⟩ | ⟨hbody, -⟩
      · exact .inl ⟨inner, .code hcode hheld, hasks⟩
      · cases hbody

end Node

/-! ### The walk -/

/-- Whether something is told that a bundle has no means for. -/
def Occurrence.isUnsupported : Occurrence → Bool
  | .unsupported .. => true
  | _ => false

/-- Whether something is told in it that a bundle has no means for. -/
def hasUnsupported (occurrences : List Occurrence) : Bool :=
  occurrences.any Occurrence.isUnsupported

@[simp] theorem hasUnsupported_nil : hasUnsupported [] = false := rfl

@[simp] theorem hasUnsupported_cons (occurrence : Occurrence) (more : List Occurrence) :
    hasUnsupported (occurrence :: more) = (occurrence.isUnsupported || hasUnsupported more) :=
  rfl

@[simp] theorem hasUnsupported_append (first rest : List Occurrence) :
    hasUnsupported (first ++ rest) = (hasUnsupported first || hasUnsupported rest) :=
  List.any_append

@[simp] theorem hasUnsupported_flatMap {α : Type} (list : List α) (tell : α → List Occurrence) :
    hasUnsupported (list.flatMap tell) = list.any fun a => hasUnsupported (tell a) :=
  List.any_flatMap

@[simp] theorem hasUnsupported_brokenIf (condition : Bool) (offset : Nat) (text : String) :
    hasUnsupported (brokenIf condition offset text) = false := by
  unfold brokenIf
  split <;> rfl

@[simp] theorem hasUnsupported_nameRules (around : Surroundings) (id : Ident) :
    hasUnsupported (nameRules around id) = false := by
  simp [nameRules]

@[simp] theorem hasUnsupported_targetRules (around : Surroundings) (id : Ident) :
    hasUnsupported (targetRules around id) = false := by
  simp [targetRules]

@[simp] theorem hasUnsupported_bound (around : Surroundings) (kind : BindingKind) (id : Ident) :
    hasUnsupported (bound around kind id) = false := by
  simp [bound, bindingRules, Occurrence.isUnsupported]

@[simp] theorem hasUnsupported_used (around : Surroundings) (role : Role) (id : Ident) :
    hasUnsupported (used around role id) = false := by
  simp [used, Occurrence.isUnsupported]

@[simp] theorem hasUnsupported_literalRules (around : Surroundings) (span : Span) (value : Literal) :
    hasUnsupported (literalRules around span value) = false := by
  unfold literalRules
  split <;> simp

@[simp] theorem hasUnsupported_directiveRules (strict : Bool) (directives : List Directive) :
    hasUnsupported (directiveRules strict directives) = false := by
  simp [directiveRules]

@[simp] theorem hasUnsupported_bodyRules (params : List Node) (code : Node) (strict : Bool) :
    hasUnsupported (bodyRules params code strict) = false := by
  unfold bodyRules
  split
  · rw [hasUnsupported_append, hasUnsupported_directiveRules]
    split <;> simp
  · rfl

@[simp] theorem hasUnsupported_aloneRules (around : Surroundings) (mayDeclare : Bool) (node : Node) :
    hasUnsupported (aloneRules around mayDeclare node) = false := by
  unfold aloneRules
  split <;> simp

@[simp] theorem hasUnsupported_breakRules (around : Surroundings) (span : Span)
    (label : Option Ident) : hasUnsupported (breakRules around span label) = false := by
  cases label <;> simp [breakRules]

@[simp] theorem hasUnsupported_continueRules (around : Surroundings) (span : Span)
    (label : Option Ident) : hasUnsupported (continueRules around span label) = false := by
  cases label <;> simp [continueRules]

@[simp] theorem hasUnsupported_deleteRules (around : Surroundings) (span : Span) (operand : Node) :
    hasUnsupported (deleteRules around span operand) = false := by
  unfold deleteRules
  split <;> simp [broken, Occurrence.isUnsupported]

@[simp] theorem hasUnsupported_objectRules (members : List Node) :
    hasUnsupported (objectRules members) = false := by
  unfold objectRules
  split <;> rfl

@[simp] theorem hasUnsupported_caseRules (cases : List Node) :
    hasUnsupported (caseRules cases) = false := by
  unfold caseRules
  split <;> rfl

@[simp] theorem hasUnsupported_classRules (elements : List Node) :
    hasUnsupported (classRules elements) = false := by
  have hbroken (offset : Nat) (text : String) : (broken offset text).isUnsupported = false := rfl
  unfold classRules
  rw [hasUnsupported_append]
  split <;> simp [hasUnsupported, hbroken]

namespace Surroundings

variable (around : Surroundings)

@[simp] theorem inBody_inBlock : around.inBlock.inBody = around.inBody := rfl

@[simp] theorem inBody_inLoopBody : around.inLoopBody.inBody = around.inBody := rfl

@[simp] theorem inBody_inField : around.inField.inBody = around.inBody := rfl

@[simp] theorem inBody_inClass (privateNames : List String) :
    (around.inClass privateNames).inBody = around.inBody := rfl

@[simp] theorem inBody_inParamsOf (shape : FunctionShape) (strict superCall superProperty : Bool) :
    (around.inParamsOf shape strict superCall superProperty).inBody = around.inBody := by
  unfold inParamsOf
  split <;> rfl

@[simp] theorem inBody_inBodyOf : around.inBodyOf.inBody = true := rfl

end Surroundings

namespace Node

/-- One of some parts of a script has something in it that a bundle has no means for. -/
def NeedsAny (inBody : Bool) (nodes : List Node) : Prop :=
  ∃ node ∈ nodes, node.Needs inBody

@[simp] theorem needsAny_nil (inBody : Bool) : NeedsAny inBody [] ↔ False := by
  simp [NeedsAny]

@[simp] theorem needsAny_cons (inBody : Bool) (node : Node) (nodes : List Node) :
    NeedsAny inBody (node :: nodes) ↔ node.Needs inBody ∨ NeedsAny inBody nodes := by
  simp [NeedsAny]

@[simp] theorem needsAny_append (inBody : Bool) (nodes more : List Node) :
    NeedsAny inBody (nodes ++ more) ↔ NeedsAny inBody nodes ∨ NeedsAny inBody more := by
  simp [NeedsAny, or_and_right, exists_or]

/-- The walk over a part meets what a bundle has no means for exactly if there is something in it. -/
def Told (node : Node) : Prop :=
  ∀ around place, hasUnsupported (node.occurrences around place) = true ↔
    node.Needs around.inBody

/-- So does the walk over some parts. -/
def ToldAll (nodes : List Node) : Prop :=
  ∀ node ∈ nodes, node.Told

@[simp] theorem toldAll_nil : ToldAll [] ↔ True := by
  simp [ToldAll]

@[simp] theorem toldAll_cons (node : Node) (nodes : List Node) :
    ToldAll (node :: nodes) ↔ node.Told ∧ ToldAll nodes :=
  List.forall_mem_cons

@[simp] theorem toldAll_append (nodes more : List Node) :
    ToldAll (nodes ++ more) ↔ ToldAll nodes ∧ ToldAll more :=
  List.forall_mem_append

theorem Told.iff {node : Node} (h : node.Told) {around : Surroundings} {place : Place} :
    hasUnsupported (node.occurrences around place) = true ↔ node.Needs around.inBody :=
  h around place

theorem ToldAll.iff {nodes : List Node} (h : ToldAll nodes) {around : Surroundings} {place : Place} :
    hasUnsupported (listOccurrences around place nodes) = true ↔ NeedsAny around.inBody nodes := by
  induction nodes with
  | nil => simp [listOccurrences]
  | cons node nodes ih =>
    rw [toldAll_cons] at h
    simp [listOccurrences, h.1.iff, ih h.2]

theorem ToldAll.option_iff {node : Option Node} (h : ToldAll node.toList) {around : Surroundings}
    {place : Place} : hasUnsupported (optionOccurrences around place node) = true ↔
      NeedsAny around.inBody node.toList := by
  cases node with
  | none => simp [optionOccurrences]
  | some node =>
    rw [Option.toList_some, toldAll_cons] at h
    simp [optionOccurrences, h.1.iff]

/-- The walk over a part meets in it what there is in its own parts, and in the code of a function,
    which stands in a body; and what the part is itself. -/
theorem told (node : Node) : node.Told := by
  induction node using inductionOnParts with
  | h node hparts hcode =>
    intro around place
    rw [needs_iff]
    change ToldAll node.parts at hparts
    change _ ↔ _ ∨ _ ∨ NeedsAny around.inBody node.parts ∨ _
    -- The kinds of parts that are unsupported themselves, or tell their own parts by cases, come
    -- first. The others have parts that are met one after another.
    cases node with
    | name id =>
      cases place <;> simp [occurrences, parts, code?, asksLoader, waits, Occurrence.isUnsupported]
    | property span key value shorthand =>
      cases shorthand with
      | false =>
        simp only [parts, Bool.false_eq_true, if_false, toldAll_cons] at hparts
        simp [occurrences, parts, code?, asksLoader, waits, hparts.1.iff, hparts.2.1.iff]
      | true =>
        simp only [parts, if_true, toldAll_cons] at hparts
        simp [occurrences, parts, code?, asksLoader, waits, hparts.1.iff]
    | func span shape id paramsSpan params code =>
      have hparts : ToldAll params := hparts
      have hcode : code.Told := hcode code rfl
      unfold occurrences
      extract_lets strict isMethod inParams only inside
      have hinside : hasUnsupported inside = true ↔
          NeedsAny around.inBody params ∨ code.Needs true := by
        simp [inside, inParams, Occurrence.isUnsupported, hparts.iff, hcode.iff]
      split <;> simp [parts, code?, asksLoader, waits, Occurrence.isUnsupported, hinside]
    | classDef span decorators id parent bodySpan elements =>
      simp only [parts, toldAll_append] at hparts
      unfold occurrences
      extract_lets privates inClass inside named
      have hinside : hasUnsupported inside = true ↔
          NeedsAny around.inBody parent.toList ∨ NeedsAny around.inBody elements := by
        simp [inside, inClass, hparts.1.2.option_iff, hparts.2.iff]
      have hnamed : hasUnsupported named = true ↔ hasUnsupported inside = true := by
        unfold named
        split <;> simp [Occurrence.isUnsupported]
      simp [parts, code?, asksLoader, waits, hparts.1.1.iff, hnamed, hinside]
    | unary span op operand =>
      simp only [parts, toldAll_cons] at hparts
      by_cases hop : op = .delete <;>
        simp [occurrences, parts, code?, asksLoader, waits, hparts.1.iff, hop]
    | metaProperty span word property =>
      by_cases hword : word = "import" <;>
        simp [occurrences, parts, code?, asksLoader, waits, Occurrence.isUnsupported, hword]
    | awaitValue span value =>
      simp only [parts, toldAll_cons] at hparts
      cases hbody : around.inBody <;>
        simp [occurrences, parts, code?, asksLoader, waits, Occurrence.isUnsupported, hparts.1.iff,
          hbody]
    | block span statements =>
      have hparts : ToldAll statements := hparts
      unfold occurrences
      split <;> simp [parts, code?, asksLoader, waits, Occurrence.isUnsupported, hparts.iff]
    | ifElse span test yes no =>
      simp only [parts, toldAll_cons] at hparts
      have hno := @ToldAll.option_iff no hparts.2.2 around (.statement true)
      cases no <;>
        simp [occurrences, parts, code?, asksLoader, waits, hparts.1.iff, hparts.2.1.iff, hno]
    | forIn span head value code =>
      simp only [parts, toldAll_cons] at hparts
      unfold occurrences
      extract_lets inside
      split <;>
        simp [inside, parts, code?, asksLoader, waits, Occurrence.isUnsupported, hparts.1.iff,
          hparts.2.1.iff, hparts.2.2.1.iff]
    | forOf span isAwait head value code =>
      simp only [parts, toldAll_cons] at hparts
      cases isAwait <;> cases hbody : around.inBody <;>
        simp [occurrences, parts, code?, asksLoader, waits, Occurrence.isUnsupported, hparts.1.iff,
          hparts.2.1.iff, hparts.2.2.1.iff, hbody]
    | _ =>
      simp only [parts, toldAll_nil, toldAll_cons, toldAll_append] at hparts
      simp [occurrences, parts, code?, asksLoader, waits, Occurrence.isUnsupported, hparts,
        Told.iff, ToldAll.iff, ToldAll.option_iff]

end Node

/-! ### The top -/

/-- The parts of a script of which a statement at the top consists. -/
def TopLevel.parts : TopLevel → List Node
  | .statement node => [node]
  | .exportDeclaration _ declaration => [declaration]
  | .exportDefault _ value => [value]
  | .importFrom .. | .exportNames .. | .exportAll .. => []

theorem TopLevel.hasUnsupported_occurrences (around : Surroundings) (statement : TopLevel) :
    hasUnsupported (statement.occurrences around) = true ↔
      Node.NeedsAny around.inBody statement.parts := by
  cases statement with
  | statement node => simp [occurrences, parts, node.told.iff]
  | importFrom => simp [occurrences, parts]
  | exportDeclaration _ declaration => simp [occurrences, parts, declaration.told.iff]
  | exportNames _ specifiers source =>
    cases source with
    | none => simp [occurrences, parts]
    | some => simp [occurrences, parts]
  | exportDefault _ value =>
    cases value <;> simp [occurrences, parts, Node.told, Node.Told.iff]
  | exportAll => simp [occurrences, parts]

namespace Program

/-- A part of a script is in it, at some depth. -/
def Holds (program : Program) (inner : Node) : Prop :=
  ∃ statement ∈ program.body, ∃ node ∈ statement.parts, node.Holds inner

/-- A part of a script is in it, and not in the body of a function. -/
def HoldsOutside (program : Program) (inner : Node) : Prop :=
  ∃ statement ∈ program.body, ∃ node ∈ statement.parts, node.HoldsOutside inner

/-- The walk over a script meets what a bundle has no means for exactly if something in it asks for
    a module, or waits outside of all functions' bodies. -/
theorem hasUnsupported_occurrences (goal : Goal) (program : Program) :
    hasUnsupported (program.occurrences goal) = true ↔
      (∃ inner, program.Holds inner ∧ inner.asksLoader = true) ∨
        ∃ inner, program.HoldsOutside inner ∧ inner.waits = true := by
  have hbody : hasUnsupported (program.occurrences goal) = true ↔
      ∃ statement ∈ program.body, Node.NeedsAny false statement.parts := by
    simp only [occurrences, hasUnsupported_append, hasUnsupported_cons, hasUnsupported_nil,
      hasUnsupported_directiveRules, hasUnsupported_flatMap, Occurrence.isUnsupported, Bool.or_false,
      Bool.false_or, List.any_eq_true, TopLevel.hasUnsupported_occurrences]
    rfl
  rw [hbody]
  constructor
  · rintro ⟨statement, hstatement, node, hnode, ⟨inner, hheld, hasks⟩ | ⟨-, inner, hheld, hwaits⟩⟩
    · exact .inl ⟨inner, ⟨statement, hstatement, node, hnode, hheld⟩, hasks⟩
    · exact .inr ⟨inner, ⟨statement, hstatement, node, hnode, hheld⟩, hwaits⟩
  · rintro (⟨inner, ⟨statement, hstatement, node, hnode, hheld⟩, hasks⟩ |
      ⟨inner, ⟨statement, hstatement, node, hnode, hheld⟩, hwaits⟩)
    · exact ⟨statement, hstatement, node, hnode, .inl ⟨inner, hheld, hasks⟩⟩
    · exact ⟨statement, hstatement, node, hnode, .inr ⟨rfl, inner, hheld, hwaits⟩⟩

end Program

end Bundler.Script

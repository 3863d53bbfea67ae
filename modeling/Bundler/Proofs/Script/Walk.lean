import Bundler.Proofs.Script.Idents

/-!
# What occurs in a script

The walk over a part of a script tells nothing but what `Walk` allows, if the walks over its own parts
do not. What holds of all that `Walk` allows therefore holds of what occurs in any script.

* `Node.Walked`: the walk over a part is allowed, with a lemma for each kind of part whose walk is
  more than those of its own parts one after another;
* `Node.walked`: the walk over any part is;
* `TopLevel.walk`: so is the walk over a statement at the top that is no import.
-/

namespace Bundler.Script

theorem Place.ofPart_ne {place : Place} (h : place ≠ .binding .imported) :
    place.ofPart ≠ .binding .imported := by
  cases place with
  | binding => exact h
  | _ => exact nofun

namespace Node

/-- The walk over a part of a script tells nothing but what the names of the part allow, wherever it
    stands, unless an import binds it. -/
def Walked (node : Node) : Prop :=
  ∀ around place, place ≠ .binding .imported → Walk node.idents (node.occurrences around place)

/-- So does the walk over each of some parts. -/
def WalkedAll (nodes : List Node) : Prop :=
  ∀ node ∈ nodes, node.Walked

/-- So does the walk over a part, if there is one. -/
def WalkedOption (node : Option Node) : Prop :=
  ∀ some ∈ node, some.Walked

variable {node : Node} {nodes : List Node} {option : Option Node} {place : Place}

theorem WalkedAll.walk (hn : WalkedAll nodes) (around : Surroundings)
    (h : place ≠ .binding .imported) :
    Walk (identsOf nodes) (listOccurrences around place nodes) := by
  induction nodes with
  | nil => exact .skip []
  | cons node more ih =>
    obtain ⟨hnode, hmore⟩ := List.forall_mem_cons.1 hn
    exact .append (hnode around place h) (ih hmore)

theorem WalkedOption.walk (hn : WalkedOption option) (around : Surroundings)
    (h : place ≠ .binding .imported) :
    Walk (identsIn option) (optionOccurrences around place option) := by
  cases option with
  | none => exact .skip []
  | some node => exact hn node rfl around place h

section

variable {span : Span} {code test value : Node} {statements decorators params : List Node}

/-! ### Names and expressions -/

theorem Walked.name (id : Ident) : (Node.name id).Walked := by
  intro around place h
  unfold occurrences
  split
  next kind => exact .bound _ (fun hk => h (congrArg _ hk)) id
  · exact .after (.targetRules _ _) (.use id .plain)
  · exact .used _ _ id
  · exact .used _ _ id
  · exact .used _ _ id

/-- A shorthand has no key of its own. -/
theorem Walked.property {key : Node} {shorthand : Bool} (hkey : key.Walked)
    (hvalue : value.Walked) : (Node.property span key value shorthand).Walked := by
  intro around place h
  refine .append ?_ (hvalue around _ ?_)
  · split
    · exact .skip _
    · exact hkey around _ nofun
  · split
    · exact nofun
    · exact Place.ofPart_ne h

theorem Walked.unary {op : UnaryOp} (hvalue : value.Walked) : (Node.unary span op value).Walked := by
  intro around place _
  refine .after ?_ (hvalue around _ nofun)
  split
  · exact .deleteRules _ _ _
  · exact .skip []

theorem Walked.metaProperty (span : Span) (owner what : String) :
    (Node.metaProperty span owner what).Walked := by
  intro around place _
  unfold occurrences
  split
  · exact .unsupported _ _
  · exact .brokenIf _ _ _

theorem Walked.awaitValue (hvalue : value.Walked) : (Node.awaitValue span value).Walked := by
  intro around place _
  refine .after (.after (.after (.brokenIf _ _ _) (.brokenIf _ _ _)) ?_) (hvalue around _ nofun)
  split
  · exact .skip []
  · exact .unsupported _ _

/-! ### Functions and classes -/

/-- The name of a function is bound before its parameters, around them, or not at all. -/
theorem Walked.func {shape : FunctionShape} {id : Option Ident} {paramsSpan : Span}
    (hparams : WalkedAll params) (hcode : code.Walked) :
    (Node.func span shape id paramsSpan params code).Walked := by
  intro around place _
  unfold occurrences
  extract_lets strict isMethod inParams only inside
  have hinside : Walk (identsOf params ++ code.idents) inside := by
    have hparams : Walk (identsOf params)
        (listOccurrences inParams (.binding (.param only)) params) := hparams.walk inParams nofun
    have hcode : Walk code.idents (code.occurrences inParams.inBodyOf .value) :=
      hcode inParams.inBodyOf _ nofun
    simpa only [inside, List.append_assoc] using
      Walk.function hparams (.after (.bodyRules params code strict) hcode)
  split
  next => exact .append (.bound _ (by nofun) _) hinside
  next id _ =>
    have hbound : Walk [id] (bound { around with strict } .ownName id) := .bound _ (by nofun) id
    simpa only [idents, Option.toList_some, List.append_assoc] using
      Walk.scope .ownName (.append hbound hinside)
  next => exact hinside

/-- The parent and the elements of a class stand in a scope of its name. -/
theorem Walked.classDef {id : Option Ident} {bodySpan : Span} {elements : List Node}
    (hdecorators : WalkedAll decorators) (hparent : WalkedOption option)
    (helements : WalkedAll elements) :
    (Node.classDef span decorators id option bodySpan elements).Walked := by
  intro around place _
  refine .append (hdecorators.walk around nofun) ?_
  have inside : Walk (identsIn option ++ identsOf elements)
      (optionOccurrences (around.inClass []) .value option ++ classRules elements ++
        listOccurrences (around.inClass
          ((elements.filterMap privateElement?).map fun element => element.1.name))
          (.element option.isSome) elements) :=
    .append (.before (hparent.walk _ nofun) (.classRules elements)) (helements.walk _ nofun)
  have hbound (kind : BindingKind) (h : kind ≠ .imported) (id : Ident) :
      Walk [id] (bound (around.inClass []) kind id) := .bound _ h id
  split
  next id _ =>
    simpa only [Option.toList_some, List.append_assoc] using
      Walk.append (hbound .classDef nofun id) (.scope .ownName inside)
  next id _ =>
    simpa only [Option.toList_some, List.append_assoc] using
      Walk.scope .ownName (.append (hbound .ownName nofun id) inside)
  next => exact .scope .ownName inside

/-! ### Statements -/

theorem Walked.varDeclaration {kind : VarKind} (hnodes : WalkedAll nodes) :
    (Node.varDeclaration span kind nodes).Walked := by
  intro around place _
  refine hnodes.walk around ?_
  split
  · exact nofun
  · exact nofun

/-- A block is a scope, unless it belongs to the one around it. -/
theorem Walked.block (hstatements : WalkedAll statements) : (Node.block span statements).Walked := by
  intro around place _
  unfold occurrences
  split
  · exact hstatements.walk around nofun
  · exact .scope .block (hstatements.walk _ nofun)

theorem Walked.ifElse (htest : test.Walked) (hnode : node.Walked) (hoption : WalkedOption option) :
    (Node.ifElse span test node option).Walked := by
  intro around place _
  refine .append (.before (.append (.before (htest around _ nofun) (.aloneRules _ _ _))
    (hnode around _ nofun)) ?_) (hoption.walk around nofun)
  split
  · exact .aloneRules _ _ _
  · exact .skip []

theorem Walked.forIn {head : Node} (hhead : head.Walked) (hvalue : value.Walked)
    (hcode : code.Walked) : (Node.forIn span head value code).Walked := by
  intro around place _
  refine .scope .block (.append (.before (.append (.after ?_ (hhead _ _ nofun)) (hvalue _ _ nofun))
    (.aloneRules _ _ _)) (hcode _ _ nofun))
  split
  · exact .brokenIf _ _ _
  · exact .skip []

theorem Walked.forOf {head : Node} {isAwait : Bool} (hhead : head.Walked) (hvalue : value.Walked)
    (hcode : code.Walked) : (Node.forOf span isAwait head value code).Walked := by
  intro around place _
  have first : Walk [] (if isAwait && !around.inBody then
      [.unsupported .topLevelForAwait span.start] else []) := by
    split
    · exact .unsupported _ _
    · exact .skip []
  have inside : Walk (head.idents ++ value.idents ++ code.idents)
      (head.occurrences around.inBlock .target ++ value.occurrences around.inBlock .value ++
        aloneRules around false code ++ code.occurrences around.inLoopBody (.statement true)) :=
    .append (.before (.append (hhead _ _ nofun) (hvalue _ _ nofun)) (.aloneRules _ _ _))
      (hcode _ _ nofun)
  simpa only [idents, occurrences, List.append_assoc] using Walk.after first (.scope .block inside)

theorem Walked.switchOn {cases : List Node} (hvalue : value.Walked) (hcases : WalkedAll cases) :
    (Node.switchOn span value cases).Walked := by
  intro around place _
  have htest : Walk value.idents (value.occurrences around .value ++ caseRules cases) :=
    .before (hvalue around _ nofun) (.caseRules cases)
  have inside : Walk (identsOf cases)
      (listOccurrences { around.inBlock with breakable := true } .value cases) :=
    hcases.walk _ nofun
  simpa only [idents, occurrences, List.append_assoc] using
    Walk.append htest (.scope .block inside)

end

/-! ### All parts -/

mutual

/-- The walk over any part of a script tells nothing but what its names allow: its parts one after
    another, with rules that they have to keep. -/
theorem walked : (node : Node) → node.Walked
  | .name id => .name id
  | .self _ | .hole _ | .keyName _ | .empty _ | .debugger _ => fun _ _ _ => .skip []
  | .superRef _ | .privateName _ => fun _ _ _ => .brokenIf _ _ _
  | .literal span value => fun around _ _ => .literalRules around span value
  | .continueTo span label => fun around _ _ => .continueRules around span label
  | .breakOut span label => fun around _ _ => .breakRules around span label
  | .metaProperty span owner what => .metaProperty span owner what
  | .template _ _ nodes | .array _ nodes | .sequence _ nodes | .body _ _ nodes =>
    fun around _ _ => (walkedAll nodes).walk around nofun
  | .objectPattern _ nodes | .arrayPattern _ nodes =>
    fun around _ h => (walkedAll nodes).walk around h
  | .spread _ value | .computed value | .update _ _ _ value | .chain _ value | .paren _ value
  | .expression _ value | .throwValue _ value => fun around _ _ => walked value around _ nofun
  | .rest _ target => fun around _ h => walked target around _ h
  | .binary _ _ one other | .assign _ _ one other | .member _ one other _ | .index _ one other _ =>
    fun around _ _ => .append (walked one around _ nofun) (walked other around _ nofun)
  | .tagged _ node _ nodes | .call _ node nodes _ _ | .make _ node nodes _ =>
    fun around _ _ => .append (walked node around _ nofun) ((walkedAll nodes).walk around nofun)
  | .object _ members => fun around _ _ =>
    .after (.objectRules members) ((walkedAll members).walk around nofun)
  | .property _ key value _ => .property (walked key) (walked value)
  | .method _ decorators _ _ key value => fun around _ _ =>
    .append (.append ((walkedAll decorators).walk around nofun) (walked key around _ nofun))
      (walked value around _ nofun)
  | .withDefault _ target value => fun around _ h =>
    .append (walked target around _ (Place.ofPart_ne h)) (walked value around _ nofun)
  | .func _ _ _ _ params code => .func (walkedAll params) (walked code)
  | .classDef _ decorators _ parent _ elements =>
    .classDef (walkedAll decorators) (walkedOption parent) (walkedAll elements)
  | .field _ decorators _ _ key value => fun around _ _ =>
    .append (.append ((walkedAll decorators).walk around nofun) (walked key around _ nofun))
      ((walkedOption value).walk _ nofun)
  | .staticBlock _ statements => fun _ _ _ =>
    .scope .staticBlock ((walkedAll statements).walk _ nofun)
  | .unary _ _ value => .unary (walked value)
  | .conditional _ test yes no => fun around _ _ =>
    .append (.append (walked test around _ nofun) (walked yes around _ nofun))
      (walked no around _ nofun)
  | .importCall _ _ arguments => fun around _ _ =>
    .after (.unsupported _ _) ((walkedAll arguments).walk around nofun)
  | .yieldValue _ _ value => fun around _ _ =>
    .after (.brokenIf _ _ _) ((walkedOption value).walk around nofun)
  | .awaitValue _ value => .awaitValue (walked value)
  | .varDeclaration _ _ declarators => .varDeclaration (walkedAll declarators)
  | .declarator _ target value => fun around _ h =>
    .append (walked target around _ h) ((walkedOption value).walk around nofun)
  | .block _ statements => .block (walkedAll statements)
  | .ifElse _ test yes no => .ifElse (walked test) (walked yes) (walkedOption no)
  | .forLoop _ head test step code => fun _ _ _ =>
    .scope .block (.append (.before (.append (.append ((walkedOption head).walk _ nofun)
      ((walkedOption test).walk _ nofun)) ((walkedOption step).walk _ nofun)) (.aloneRules _ _ _))
        (walked code _ _ nofun))
  | .forIn _ head value code => .forIn (walked head) (walked value) (walked code)
  | .forOf _ _ head value code => .forOf (walked head) (walked value) (walked code)
  | .whileLoop _ test code => fun around _ _ =>
    .append (.before (walked test around _ nofun) (.aloneRules _ _ _)) (walked code _ _ nofun)
  | .doWhile _ code test => fun around _ _ =>
    .append (.after (.aloneRules _ _ _) (walked code _ _ nofun)) (walked test around _ nofun)
  | .returnValue _ value => fun around _ _ => (walkedOption value).walk around nofun
  | .withObject _ scope code => fun around _ _ =>
    .append (.before (.after (.brokenIf _ _ _) (walked scope around _ nofun)) (.aloneRules _ _ _))
      (walked code around _ nofun)
  | .switchOn _ value cases => .switchOn (walked value) (walkedAll cases)
  | .case _ test statements => fun around _ _ =>
    .append ((walkedOption test).walk around nofun) ((walkedAll statements).walk around nofun)
  | .labeled _ _ code => fun _ _ _ =>
    .after (.after (.after (.nameRules _ _) (.brokenIf _ _ _)) (.aloneRules _ _ _))
      (walked code _ _ nofun)
  | .tryCatch _ code caught always => fun around _ _ =>
    .append (.append (walked code around _ nofun) ((walkedOption caught).walk around nofun))
      ((walkedOption always).walk around nofun)
  | .handler _ param code => fun _ _ _ =>
    .scope .block (.append ((walkedOption param).walk _ nofun) (walked code _ _ nofun))

theorem walkedAll : (nodes : List Node) → WalkedAll nodes
  | [] => nofun
  | node :: more => List.forall_mem_cons.2 ⟨walked node, walkedAll more⟩

theorem walkedOption : (node : Option Node) → WalkedOption node
  | none => nofun
  | some node => fun _ h => Option.some_inj.1 h ▸ walked node

end

end Node

namespace TopLevel

/-- Whether a statement is an import. -/
def isImport : TopLevel → Bool
  | .importFrom .. => true
  | _ => false

/-- What occurs in a statement at the top that is no import. -/
theorem walk (around : Surroundings) (statement : TopLevel) (h : statement.isImport = false) :
    Walk statement.idents (statement.occurrences around) := by
  cases statement with
  | statement node => exact node.walked around _ nofun
  | importFrom => cases h
  | exportDeclaration _ declaration => exact declaration.walked around _ nofun
  | exportNames _ specifiers source =>
    cases source with
    | some source => exact .skip []
    | none =>
      induction specifiers with
      | nil => exact .skip []
      | cons specifier specifiers ih =>
        exact .append (.used around .exported specifier.ident) (ih rfl)
  | exportDefault _ value =>
    have declared := value.walked around (.statement false) nofun
    have evaluated := value.walked around .value nofun
    cases value with
    | func => exact declared
    | classDef => exact declared
    | _ => exact evaluated
  | exportAll => exact .skip []

end TopLevel

end Bundler.Script

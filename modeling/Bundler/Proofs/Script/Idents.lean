import Bundler.Script.Occurrence
import Bundler.Script.Parser.Pattern

/-!
# The names that are written in a script

What a script binds and uses is written somewhere in it, each name at a place of its own. The
names of a part of a script are those that stand where something may be bound or used; keys
of properties, private names and labels do not count.

* `Node.idents`: the names of a part of a script, in order;
* `Chain`: names one after another between two offsets;
* `Pattern.idents_ofNode`: an expression keeps its names when it turns out to be a pattern;
* `Walk`: what may occur in a part of a script that has some names.
-/

namespace Bundler.Script

namespace Node

mutual

/-- The names of a part of a script, in the order in which they are written. -/
def idents : Node → List Ident
  | .name id => [id]
  | .self _ | .superRef _ | .literal .. | .hole _ | .keyName _ | .privateName _ | .metaProperty ..
  | .empty _ | .continueTo .. | .breakOut .. | .debugger _ => []
  | .template _ _ values => identsOf values
  | .tagged _ tag _ values => tag.idents ++ identsOf values
  | .array _ items => identsOf items
  | .spread _ value => value.idents
  | .object _ members => identsOf members
  | .property _ key value _ => key.idents ++ value.idents
  | .method _ decorators _ _ key value => identsOf decorators ++ key.idents ++ value.idents
  | .computed value => value.idents
  | .withDefault _ target value => target.idents ++ value.idents
  | .objectPattern _ properties => identsOf properties
  | .arrayPattern _ items => identsOf items
  | .rest _ target => target.idents
  | .func _ _ id _ params code => id.toList ++ (identsOf params ++ code.idents)
  | .body _ _ statements => identsOf statements
  | .classDef _ decorators id parent _ elements =>
    identsOf decorators ++ (id.toList ++ (identsIn parent ++ identsOf elements))
  | .field _ decorators _ _ key value => identsOf decorators ++ key.idents ++ identsIn value
  | .staticBlock _ statements => identsOf statements
  | .unary _ _ operand => operand.idents
  | .update _ _ _ operand => operand.idents
  | .binary _ _ left right => left.idents ++ right.idents
  | .conditional _ test yes no => test.idents ++ yes.idents ++ no.idents
  | .assign _ _ target value => target.idents ++ value.idents
  | .sequence _ items => identsOf items
  | .member _ owner key _ => owner.idents ++ key.idents
  | .index _ owner key _ => owner.idents ++ key.idents
  | .call _ callee arguments _ _ => callee.idents ++ identsOf arguments
  | .chain _ value => value.idents
  | .make _ callee arguments _ => callee.idents ++ identsOf arguments
  | .importCall _ _ arguments => identsOf arguments
  | .yieldValue _ _ value => identsIn value
  | .awaitValue _ value => value.idents
  | .paren _ value => value.idents
  | .expression _ value => value.idents
  | .varDeclaration _ _ declarators => identsOf declarators
  | .declarator _ target value => target.idents ++ identsIn value
  | .block _ statements => identsOf statements
  | .ifElse _ test yes no => test.idents ++ yes.idents ++ identsIn no
  | .forLoop _ head test step code =>
    identsIn head ++ identsIn test ++ identsIn step ++ code.idents
  | .forIn _ head value code => head.idents ++ value.idents ++ code.idents
  | .forOf _ _ head value code => head.idents ++ value.idents ++ code.idents
  | .whileLoop _ test code => test.idents ++ code.idents
  | .doWhile _ code test => code.idents ++ test.idents
  | .returnValue _ value => identsIn value
  | .withObject _ scope code => scope.idents ++ code.idents
  | .switchOn _ value cases => value.idents ++ identsOf cases
  | .case _ test statements => identsIn test ++ identsOf statements
  | .labeled _ _ code => code.idents
  | .throwValue _ value => value.idents
  | .tryCatch _ code caught always => code.idents ++ identsIn caught ++ identsIn always
  | .handler _ param code => identsIn param ++ code.idents

/-- The names of parts of a script. -/
def identsOf : List Node → List Ident
  | [] => []
  | node :: more => node.idents ++ identsOf more

/-- The names of a part of a script that may be missing. -/
def identsIn : Option Node → List Ident
  | none => []
  | some node => node.idents

end

@[simp, grind =] theorem identsOf_nil : identsOf [] = [] := rfl

@[simp, grind =] theorem identsOf_cons (node : Node) (more : List Node) :
    identsOf (node :: more) = node.idents ++ identsOf more := rfl

@[simp, grind =] theorem identsIn_none : identsIn none = [] := rfl

@[simp, grind =] theorem identsIn_some (node : Node) : identsIn (some node) = node.idents := rfl

@[simp, grind =] theorem identsOf_append (nodes more : List Node) :
    identsOf (nodes ++ more) = identsOf nodes ++ identsOf more := by
  induction nodes with
  | nil => rfl
  | cons node nodes ih => simp only [List.cons_append, identsOf_cons, ih, List.append_assoc]

/-- Parentheses have no names of their own. -/
theorem idents_bare (node : Node) : node.bare.idents = node.idents := by
  fun_induction bare node with
  | case1 _ value ih => rw [ih, idents]
  | case2 => rfl

end Node

/-- The name in a module that an export is for. -/
def ExportSpecifier.ident (specifier : ExportSpecifier) : Ident :=
  ⟨specifier.source.name, specifier.source.span⟩

/-- The names of a statement at the top, in the order in which they are written. -/
def TopLevel.idents : TopLevel → List Ident
  | .statement node => node.idents
  | .importFrom _ specifiers _ => (specifiers.getD []).map importedId
  | .exportDeclaration _ declaration => declaration.idents
  | .exportNames _ specifiers none => specifiers.map ExportSpecifier.ident
  | .exportNames _ _ (some _) => []
  | .exportDefault _ value => value.idents
  | .exportAll .. => []

/-! ### Names one after another -/

/-- Names stand between two offsets, one after another, and each takes something. -/
structure Chain (lo : Nat) (ids : List Ident) (hi : Nat) : Prop where
  /-- All names stand between the offsets. -/
  bounds : ∀ id ∈ ids, lo ≤ id.span.start ∧ id.span.stop ≤ hi
  /-- Each name takes something. -/
  filled : ∀ id ∈ ids, id.span.start < id.span.stop
  /-- Each name stands before those after it. -/
  ordered : ids.Pairwise fun one other => one.span.stop ≤ other.span.start

namespace Chain

variable {lo lo' hi hi' : Nat} {ids more : List Ident}

theorem nil (lo hi : Nat) : Chain lo [] hi :=
  ⟨fun _ h => absurd h List.not_mem_nil, fun _ h => absurd h List.not_mem_nil, .nil⟩

theorem singleton {id : Ident} (hlo : lo ≤ id.span.start) (h : id.span.start < id.span.stop)
    (hhi : id.span.stop ≤ hi) : Chain lo [id] hi := by
  refine ⟨?_, ?_, List.pairwise_singleton _ _⟩
  · intro other ho
    obtain rfl := List.mem_singleton.1 ho
    exact ⟨hlo, hhi⟩
  · intro other ho
    obtain rfl := List.mem_singleton.1 ho
    exact h

theorem weaken (h : Chain lo ids hi) (hlo : lo' ≤ lo) (hhi : hi ≤ hi') : Chain lo' ids hi' :=
  ⟨fun id hid => ⟨Nat.le_trans hlo (h.bounds id hid).1, Nat.le_trans (h.bounds id hid).2 hhi⟩,
    h.filled, h.ordered⟩

/-- Names that end before others start, and those. -/
theorem append {mid mid' : Nat} (h : Chain lo ids mid) (hm : Chain mid' more hi)
    (hmid : mid ≤ mid') (hlo : lo ≤ mid') (hhi : mid ≤ hi) : Chain lo (ids ++ more) hi := by
  refine ⟨?_, ?_, List.pairwise_append.2 ⟨h.ordered, hm.ordered, ?_⟩⟩
  · intro id hid
    rcases List.mem_append.1 hid with hid | hid
    · exact (h.weaken (Nat.le_refl _) hhi).bounds id hid
    · exact (hm.weaken hlo (Nat.le_refl _)).bounds id hid
  · intro id hid
    rcases List.mem_append.1 hid with hid | hid
    · exact h.filled id hid
    · exact hm.filled id hid
  · intro one ho other hother
    exact Nat.le_trans (h.bounds one ho).2 (Nat.le_trans hmid (hm.bounds other hother).1)

theorem sublist (h : Chain lo ids hi) (hs : more.Sublist ids) : Chain lo more hi :=
  ⟨fun id hid => h.bounds id (hs.subset hid), fun id hid => h.filled id (hs.subset hid),
    h.ordered.sublist hs⟩

/-- A name stands once in a chain. -/
theorem nodup (h : Chain lo ids hi) : ids.Nodup := by
  refine h.ordered.imp_of_mem fun {one other} ho _ hle heq => ?_
  subst heq
  have := h.filled one ho
  omega

end Chain

/-! ### Patterns -/

theorem Except.map_eq_ok {ε α β : Type} {f : α → β} {x : Except ε α} {b : β} :
    x.map f = .ok b ↔ ∃ a, x = .ok a ∧ f a = b := by
  cases x <;> simp [Except.map]

theorem Except.bind_eq_ok {ε α β : Type} {f : α → Except ε β} {x : Except ε α} {b : β} :
    x >>= f = .ok b ↔ ∃ a, x = .ok a ∧ f a = .ok b := by
  cases x <;> simp [bind, Except.bind]

namespace Parser.Pattern

theorem idents_of_both (commas : List Nat) (binds : Bool) :
    (∀ element node pattern, ofNode commas binds element node = .ok pattern →
      pattern.idents = node.idents) ∧
    ∀ inObject nodes patterns, ofNodes commas binds inObject nodes = .ok patterns →
      Node.identsOf patterns = Node.identsOf nodes := by
  apply ofNode.mutual_induct commas binds
    (fun element node => ∀ pattern, ofNode commas binds element node = .ok pattern →
      pattern.idents = node.idents)
    (fun inObject nodes => ∀ patterns, ofNodes commas binds inObject nodes = .ok patterns →
      Node.identsOf patterns = Node.identsOf nodes)
  all_goals intros
  all_goals rename_i h
  -- One equation of the two functions for each case.
  all_goals
    first
    | rw [ofNode] at h
    | rw [ofNodes] at h
  all_goals grind [Node.idents, Node.idents_bare, = Except.map_eq_ok, = Except.bind_eq_ok]

/-- An expression keeps its names when it turns out to be a pattern. -/
theorem idents_ofNode {commas : List Nat} {binds element : Bool} {node pattern : Node}
    (h : ofNode commas binds element node = .ok pattern) : pattern.idents = node.idents :=
  (idents_of_both commas binds).1 element node pattern h

theorem idents_ofNodes {commas : List Nat} {binds inObject : Bool} {nodes patterns : List Node}
    (h : ofNodes commas binds inObject nodes = .ok patterns) :
    Node.identsOf patterns = Node.identsOf nodes :=
  (idents_of_both commas binds).2 inObject nodes patterns h

end Parser.Pattern

/-! ### Occurrences -/

/-- What may occur in a part of a script that has some names: scopes are opened and closed, in
    functions the names so far may be settled, and names of the part are bound and used in their
    order, each at most once and none as an import. -/
inductive Walk : List Ident → List Occurrence → Prop
  /-- Names may not matter. -/
  | skip (ids : List Ident) : Walk ids []
  /-- One part after another. -/
  | append {ids more : List Ident} {first rest : List Occurrence} (hf : Walk ids first)
      (hr : Walk more rest) : Walk (ids ++ more) (first ++ rest)
  /-- A name that is bound. -/
  | bind (id : Ident) {kind : BindingKind} (h : kind ≠ .imported) : Walk [id] [.bind id kind]
  /-- A name that is used. -/
  | use (id : Ident) (role : Role) : Walk [id] [.use id role]
  /-- Something that a bundle has no means for. -/
  | unsupported (construct : Unsupported) (offset : Nat) : Walk [] [.unsupported construct offset]
  /-- A rule that is broken. -/
  | broken (issue : Issue) : Walk [] [.broken issue]
  /-- A scope. -/
  | scope (kind : ScopeKind) {ids : List Ident} {inside : List Occurrence} (h : Walk ids inside) :
      Walk ids ([.enter kind] ++ inside ++ [.leave])
  /-- A function, with its parameters before its body. -/
  | function {ids more : List Ident} {params code : List Occurrence} (hp : Walk ids params)
      (hc : Walk more code) :
      Walk (ids ++ more) ([.enter .function] ++ params ++ [.settle] ++ code ++ [.leave])

namespace Walk

variable {ids more : List Ident} {first rest : List Occurrence}

/-- Broken rules before a part. -/
theorem after (hf : Walk [] first) (hr : Walk ids rest) : Walk ids (first ++ rest) :=
  append hf hr

/-- Broken rules behind a part. -/
theorem before (hf : Walk ids first) (hr : Walk [] rest) : Walk ids (first ++ rest) := by
  have := append hf hr
  rwa [List.append_nil] at this

theorem brokenIf (condition : Bool) (offset : Nat) (text : String) :
    Walk [] (Script.brokenIf condition offset text) := by
  unfold Script.brokenIf
  split
  · exact broken _
  · exact skip []

theorem ofBroken {issues : List Issue} : Walk [] (issues.map Occurrence.broken) := by
  induction issues with
  | nil => exact skip []
  | cons issue issues ih => exact after (broken issue) ih

theorem nameRules (around : Surroundings) (id : Ident) : Walk [] (Script.nameRules around id) :=
  after (brokenIf _ _ _) (brokenIf _ _ _)

theorem targetRules (around : Surroundings) (id : Ident) : Walk [] (Script.targetRules around id) :=
  after (nameRules _ _) (brokenIf _ _ _)

theorem bound (around : Surroundings) {kind : BindingKind} (h : kind ≠ .imported) (id : Ident) :
    Walk [id] (Script.bound around kind id) :=
  after (after (targetRules _ _) (brokenIf _ _ _)) (bind id h)

theorem used (around : Surroundings) (role : Role) (id : Ident) :
    Walk [id] (Script.used around role id) :=
  after (after (nameRules _ _) (brokenIf _ _ _)) (use id role)

theorem literalRules (around : Surroundings) (span : Span) (value : Literal) :
    Walk [] (Script.literalRules around span value) := by
  unfold Script.literalRules
  split
  · exact brokenIf _ _ _
  · exact brokenIf _ _ _
  · exact skip []

theorem directiveRules (strict : Bool) (directives : List Directive) :
    Walk [] (Script.directiveRules strict directives) := by
  induction directives with
  | nil => exact skip []
  | cons directive directives ih => exact after (brokenIf _ _ _) ih

theorem bodyRules (params : List Node) (code : Node) (strict : Bool) :
    Walk [] (Script.bodyRules params code strict) := by
  unfold Script.bodyRules
  split
  · refine after ?_ (directiveRules _ _)
    split
    · exact brokenIf _ _ _
    · exact skip []
  · exact skip []

theorem aloneRules (around : Surroundings) (mayDeclare : Bool) (node : Node) :
    Walk [] (Script.aloneRules around mayDeclare node) := by
  unfold Script.aloneRules
  split
  · exact brokenIf _ _ _
  · exact skip []

theorem breakRules (around : Surroundings) (span : Span) (label : Option Ident) :
    Walk [] (Script.breakRules around span label) := by
  cases label <;> exact brokenIf _ _ _

theorem continueRules (around : Surroundings) (span : Span) (label : Option Ident) :
    Walk [] (Script.continueRules around span label) := by
  cases label <;> exact brokenIf _ _ _

theorem deleteRules (around : Surroundings) (span : Span) (operand : Node) :
    Walk [] (Script.deleteRules around span operand) := by
  unfold Script.deleteRules
  split
  · exact brokenIf _ _ _
  · exact broken _
  · exact broken _
  · exact skip []

theorem objectRules (members : List Node) : Walk [] (Script.objectRules members) := by
  unfold Script.objectRules
  split
  · exact broken _
  · exact skip []

theorem caseRules (cases : List Node) : Walk [] (Script.caseRules cases) := by
  unfold Script.caseRules
  split
  · exact broken _
  · exact skip []

theorem classRules (elements : List Node) : Walk [] (Script.classRules elements) := by
  unfold Script.classRules
  refine after ?_ ?_
  · split
    · exact broken _
    · exact skip []
  · have := @ofBroken ((repeatedPrivates (elements.filterMap privateElement?)).map
      fun offset => ⟨offset, "A private name declared twice"⟩)
    rwa [List.map_map] at this

end Walk

end Bundler.Script

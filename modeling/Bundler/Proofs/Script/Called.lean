import Bundler.Proofs.Script.Parts
import Bundler.Proofs.Script.Uses

/-!
# The names that are called

The walk over a script goes into all parts of it, at whatever depth. So the name that a call calls
occurs as what is called, wherever the call stands.

* `Node.Tells`: what a part of a script tells wherever it stands;
* `Node.Holds.tells`: a part tells all that is told by what is in it;
* `Node.calledName?`: the name that a call calls;
* `Program.callee_of_holds`: it occurs as what is called.
-/

namespace Bundler.Script

namespace Node

/-- What occurs in a part of a script wherever the part stands. -/
def Tells (node : Node) (occurrence : Occurrence) : Prop :=
  ∀ around place, occurrence ∈ node.occurrences around place

/-- What occurs in one of some parts, wherever it stands. -/
def TellsAny (nodes : List Node) (occurrence : Occurrence) : Prop :=
  ∃ node ∈ nodes, node.Tells occurrence

section

variable {occurrence : Occurrence}

@[simp] theorem tellsAny_nil : TellsAny [] occurrence ↔ False := by
  simp [TellsAny]

@[simp] theorem tellsAny_cons (node : Node) (nodes : List Node) :
    TellsAny (node :: nodes) occurrence ↔ node.Tells occurrence ∨ TellsAny nodes occurrence := by
  simp [TellsAny]

@[simp] theorem tellsAny_append (nodes more : List Node) :
    TellsAny (nodes ++ more) occurrence ↔
      TellsAny nodes occurrence ∨ TellsAny more occurrence := by
  simp [TellsAny, or_and_right, exists_or]

theorem TellsAny.mem {nodes : List Node} (h : TellsAny nodes occurrence) (around : Surroundings)
    (place : Place) : occurrence ∈ listOccurrences around place nodes := by
  induction nodes with
  | nil => simp at h
  | cons node nodes ih =>
    rw [listOccurrences, List.mem_append]
    exact ((tellsAny_cons node nodes).1 h).imp (fun h => h around place) ih

theorem TellsAny.mem_option {node : Option Node} (h : TellsAny node.toList occurrence)
    (around : Surroundings) (place : Place) :
    occurrence ∈ optionOccurrences around place node := by
  cases node with
  | none => simp at h
  | some node =>
    have h : node.Tells occurrence := by simpa using h
    exact h around place

/-- What occurs in the parts of which a part consists occurs in it. -/
theorem tells_of_parts {node : Node} (h : TellsAny node.parts occurrence) :
    node.Tells occurrence := by
  intro around place
  -- The walk goes over the parts one after another, but for those kinds of parts in which it does
  -- something else as well.
  cases node with
  | name | self | superRef | literal | hole | keyName | privateName | metaProperty | empty
  | continueTo | breakOut | debugger => simp [parts] at h
  | property span key value shorthand =>
    cases shorthand with
    | false =>
      simp only [parts, Bool.false_eq_true, if_false, tellsAny_cons, tellsAny_nil, or_false] at h
      simp only [occurrences, Bool.false_eq_true, if_false, List.mem_append]
      exact h.imp (fun h => h _ _) fun h => h _ _
    | true =>
      simp only [parts, if_true, tellsAny_cons, tellsAny_nil, or_false] at h
      simp only [occurrences, if_true, List.mem_append]
      exact .inr (h _ _)
  | func span shape id paramsSpan params code =>
    have h : TellsAny params occurrence := h
    unfold occurrences
    extract_lets strict isMethod inParams only inside
    have hinside : occurrence ∈ inside := by
      simp [inside, h.mem inParams (.binding (.param only))]
    split <;> simp [hinside]
  | classDef span decorators id parent bodySpan elements =>
    simp only [parts, tellsAny_append] at h
    unfold occurrences
    extract_lets privates inClass inside named
    have hinside (h : TellsAny parent.toList occurrence ∨ TellsAny elements occurrence) :
        occurrence ∈ inside := by
      rcases h with h | h
      · simp [inside, h.mem_option (around.inClass []) .value]
      · simp [inside, h.mem inClass (.element parent.isSome)]
    have hnamed (h : occurrence ∈ inside) : occurrence ∈ named := by
      unfold named
      split <;> simp [h]
    rw [List.mem_append]
    rcases h with (h | h) | h
    · exact .inl (h.mem _ _)
    · exact .inr (hnamed (hinside (.inl h)))
    · exact .inr (hnamed (hinside (.inr h)))
  | _ =>
    simp only [parts, tellsAny_nil, tellsAny_cons, tellsAny_append, or_false] at h
    simp only [occurrences, List.mem_append]
    grind [TellsAny.mem, TellsAny.mem_option, Tells]

/-- What occurs in the code of a function occurs in the function. -/
theorem tells_of_code {node code : Node} (hcode : node.code? = some code)
    (h : code.Tells occurrence) : node.Tells occurrence := by
  intro around place
  cases node with
  | func span shape id paramsSpan params own =>
    obtain rfl : own = code := Option.some.inj hcode
    unfold occurrences
    extract_lets strict isMethod inParams only inside
    have hinside : occurrence ∈ inside := by simp [inside, h inParams.inBodyOf .value]
    split <;> simp [hinside]
  | _ => cases hcode

/-- What occurs in something occurs in all parts of a script that it is in. -/
theorem Holds.tells {node inner : Node} (h : node.Holds inner) (ht : inner.Tells occurrence) :
    node.Tells occurrence := by
  induction h with
  | self => exact ht
  | part hpart _ ih => exact tells_of_parts ⟨_, hpart, ih ht⟩
  | code hcode _ ih => exact tells_of_code hcode (ih ht)

/-- The name that a part of a script calls, if it is the call of a name. -/
def calledName? : Node → Option Ident
  | .call _ (.name id) _ _ _ => some id
  | _ => none

/-- The name that a call calls occurs as what is called, wherever the call stands. -/
theorem tells_callee {node : Node} {id : Ident} (h : node.calledName? = some id) :
    node.Tells (.use id .callee) := by
  intro around place
  unfold calledName? at h
  split at h
  · cases h
    simp [occurrences, used]
  · cases h

end

end Node

/-- What occurs in the parts of a statement at the top occurs in it. -/
theorem TopLevel.mem_occurrences {statement : TopLevel} {occurrence : Occurrence} {node : Node}
    (hnode : node ∈ statement.parts) (h : node.Tells occurrence) (around : Surroundings) :
    occurrence ∈ statement.occurrences around := by
  cases statement with
  | statement value | exportDeclaration _ value =>
    obtain rfl := List.mem_singleton.1 hnode
    exact h _ _
  | exportDefault _ value =>
    obtain rfl := List.mem_singleton.1 hnode
    simp only [occurrences]
    split <;> exact h _ _
  | importFrom | exportNames | exportAll => cases hnode

/-- The name that a call in a module calls occurs there as what is called. -/
theorem Program.callee_of_holds {program : Program} {call : Node} {id : Ident}
    (h : program.Holds call) (hcall : call.calledName? = some id) :
    ⟨id, .callee⟩ ∈ usesIn program.inside := by
  obtain ⟨statement, hstatement, node, hnode, hholds⟩ := h
  have hmem := TopLevel.mem_occurrences hnode (hholds.tells (Node.tells_callee hcall)) around
  have hinside : .use id .callee ∈ program.inside :=
    List.mem_append_right _ (List.mem_flatMap.2 ⟨statement, hstatement, hmem⟩)
  exact List.mem_filterMap.2 ⟨_, hinside, rfl⟩

end Bundler.Script

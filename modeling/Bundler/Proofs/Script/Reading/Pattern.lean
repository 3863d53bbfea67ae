import Bundler.Proofs.Script.Reading.Basic
import Bundler.Script.Parser.Pattern

namespace Bundler.Script.Parser

open Std.Do

set_option mvcgen.warning false

variable [Whole] {reader : Reader} {state : State}

@[spec] theorem bindingElement_reads (hreader : reader.Keeps) :
   Reads (bindingElement reader) state fun node now => Spans node state now := by
  unfold bindingElement withDefault
  have hr := hreader.reads
  mvcgen [hr]
  all_goals grind -linarith [Node.idents, Node.span, Node.start]

@[spec] theorem bindingRest_reads (hreader : reader.Keeps) :
   Reads (bindingRest reader) state fun node now => Spans node state now := by
  unfold bindingRest
  have hr := hreader.reads
  mvcgen [hr]
  all_goals grind -linarith [Node.idents, Node.span, Node.start]

@[spec] theorem checkRestIsLast_reads (nodes : List Node) (comma : Bool) :
    Reads (checkRestIsLast nodes comma) state fun _ now =>
      now.token = state.token ∧ now.stop = state.stop := by
  unfold checkRestIsLast
  mvcgen [forIn_reads, -Spec.forIn_list]
  all_goals grind -linarith

@[spec] theorem reinterpret_reads (binds : Bool) (node : Node) :
    Reads (reinterpret binds node) state fun pattern now =>
      pattern.idents = node.idents ∧ now.token = state.token ∧ now.stop = state.stop := by
  unfold reinterpret
  mvcgen
  all_goals grind -linarith [Pattern.idents_ofNode]

@[spec] theorem reinterpretParams?_reads (start : Nat) (nodes : List Node) :
    Reads (reinterpretParams? start nodes) state fun patterns now =>
      (∀ found, patterns = some found → Node.identsOf found = Node.identsOf nodes) ∧
        now.token = state.token ∧ now.stop = state.stop := by
  unfold reinterpretParams?
  mvcgen [forIn_reads, -Spec.forIn_list]
  all_goals grind -linarith [Pattern.idents_ofNodes]

@[spec] theorem key_reads (hreader : reader.Keeps) :
    Reads (key reader) state fun node now => Spans node state now ∧
      state.token.span.start ≤ now.stop ∧ ∀ id, node = .keyName id → id.span = state.token.span ∧
        now.stop = state.token.span.stop ∧ state.token.span.start < state.token.span.stop := by
  unfold key
  have hr := hreader.reads
  mvcgen [hr]
  all_goals grind -linarith [Node.idents, Node.span, Node.start]

@[spec] theorem bindingProperty_reads (hreader : reader.Keeps) :
    Reads (bindingProperty reader) state fun node now => Spans node state now := by
  unfold bindingProperty withDefault
  have hr := hreader.reads
  mvcgen [hr]
  all_goals grind -linarith [Node.idents, Node.span, Node.start]

@[spec] theorem bindingItem_reads (hreader : reader.Keeps) :
    Reads (bindingItem reader) state fun node now => Spans node state now := by
  unfold bindingItem
  mvcgen
  all_goals grind -linarith [Node.idents, Node.span, Node.start]

@[spec] theorem binding_reads (hreader : reader.Keeps) :
    Reads (binding reader) state fun node now => Spans node state now ∧
      node.start = state.token.span.start ∧ state.token.span.start ≤ now.stop := by
  unfold binding
  mvcgen
  all_goals grind -linarith [Node.idents, Node.span, Node.start]

@[spec] theorem params_reads (hreader : reader.Keeps) :
    Reads (params reader) state fun found now =>
      found.1.start = state.token.span.start ∧ state.token.span.start ≤ now.stop ∧
        Row state.token.span.start (Node.identsOf found.2) now.stop := by
  unfold params
  have hparam : ∀ state, Reads (do
      if ← at? .ellipsis then bindingRest reader else bindingElement reader) state
      fun node now => Spans node state now := by
    intro state
    mvcgen
    all_goals grind -linarith
  have hlist := fun state => withIn_reads (@commaList_reads _ state .parenClose _ hparam)
  mvcgen [hlist]
  all_goals grind -linarith

end Bundler.Script.Parser

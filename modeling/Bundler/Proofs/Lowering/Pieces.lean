import Bundler.Lowering.Plan
import Bundler.Proofs.Text.Edit
import Bundler.Proofs.Text.Offset
import Mathlib.Data.List.Infix
import Mathlib.Tactic.ByContra

/-!
# The pieces of a lowered module

A lowered module is the module with changes in the place of some parts. So its text is made of
pieces, each of which is text of the module, or what a change puts in the place of such text.
Not every change of a plan need be among them: one that starts in what another one has replaced
is left out.

* `Plan.pieces`: the pieces that a plan makes of a module;
* `Plan.before_pieces`, `Plan.after_pieces`: what they are in the module and in the lowered one;
* `Plan.flatMap_pieces`: changes that no other one is in the way of are among them, in order;
* `calls`: the calls in pieces that ask for other modules;
* `definitions`: the names that pieces define on the exports of the module.
-/

namespace Bundler

namespace Lowering

/-- A piece of a lowered module. -/
inductive Piece where
  /-- Text of the module. -/
  | kept (text : List Char)
  /-- A change in the place of the text of a stretch. -/
  | changed (span : Span) (old : List Char) (change : Change)

namespace Piece

/-- The text of a piece in the module. -/
def before : Piece → List Char
  | kept text => text
  | changed _ old _ => old

/-- The text of a piece in the lowered module. -/
def after : Piece → List Char
  | kept text => text
  | changed _ _ change => change.text.toList

/-- The change in a piece, with its place. -/
def change? : Piece → Option (Span × Change)
  | kept _ => none
  | changed span _ change => some (span, change)

end Piece

namespace Plan

/-- A change as an edit. -/
def edit (one : Span × Change) : Edit where
  span := one.1
  text := one.2.text

/-- The changes in the order in which they are tried. -/
def inOrder (plan : Plan) : List (Span × Change) :=
  plan.changes.mergeSort fun one other => (edit one).comesFirst (edit other)

theorem map_inOrder (plan : Plan) : plan.inOrder.map edit = plan.edits.mergeSort Edit.comesFirst :=
  List.map_mergeSort fun _ _ _ _ => rfl

theorem inOrder_perm (plan : Plan) : plan.inOrder.Perm plan.changes :=
  List.mergeSort_perm _ _

/-- Of two changes the one that starts first is tried first. -/
theorem inOrder_sorted (plan : Plan) : plan.inOrder.Pairwise fun one other =>
    one.1.start < other.1.start ∨
      one.1.start = other.1.start ∧ one.1.stop ≤ other.1.stop := by
  have h := Edit.pairwise_mergeSort plan.edits
  rw [← map_inOrder, List.pairwise_map] at h
  exact h.imp Edit.comesFirst_iff.1

/-- What is tried before one of the changes, and what is tried after it. -/
theorem exists_inOrder (plan : Plan) {one : Span × Change} {others : List (Span × Change)}
    (h : plan.changes = others ++ [one]) :
    ∃ before later, plan.inOrder = before ++ one :: later ∧ (before ++ later).Perm others ∧
      (∀ other ∈ before, other.1.start < one.1.start ∨
        other.1.start = one.1.start ∧ other.1.stop ≤ one.1.stop) ∧
      ∀ other ∈ later, one.1.start < other.1.start ∨
        one.1.start = other.1.start ∧ one.1.stop ≤ other.1.stop := by
  have hperm := plan.inOrder_perm
  have hsorted := plan.inOrder_sorted
  have hmem : one ∈ plan.inOrder := hperm.mem_iff.2 (h ▸ List.mem_append_right _ (.head _))
  obtain ⟨before, later, hsplit⟩ := List.append_of_mem hmem
  rw [hsplit] at hsorted
  rw [hsplit, h] at hperm
  obtain ⟨-, hlater, hbefore⟩ := List.pairwise_append.1 hsorted
  refine ⟨before, later, hsplit, ?_, fun other hother => hbefore other hother one (.head _),
    (List.pairwise_cons.1 hlater).1⟩
  exact (List.perm_middle.symm.trans (hperm.trans (List.perm_append_singleton _ _))).cons_inv

/-- What changes in order make of the text from an offset on. -/
def piecesFrom (offset : Nat) (text : List Char) : List (Span × Change) → List Piece
  | [] => [.kept text]
  | (span, change) :: more =>
    if span.start < offset then piecesFrom offset text more
    else
      let (kept, rest) := Text.splitBytes (span.start - offset) text
      let (old, rest) := Text.splitBytes (span.stop - span.start) rest
      .kept kept :: .changed span old change :: piecesFrom span.stop rest more

/-- The pieces that a plan makes of a module. -/
def pieces (plan : Plan) (source : List Char) : List Piece :=
  piecesFrom 0 source plan.inOrder

/-- A change in order is made where the text from its start on is known. -/
theorem piecesFrom_cons {offset : Nat} {kept old rest : List Char} {span : Span} {change : Change}
    (more : List (Span × Change)) (hstart : offset + Text.byteLength kept = span.start)
    (hstop : span.start + Text.byteLength old = span.stop) :
    piecesFrom offset (kept ++ old ++ rest) ((span, change) :: more) =
      .kept kept :: .changed span old change :: piecesFrom span.stop rest more := by
  have hle : ¬span.start < offset := by omega
  rw [piecesFrom, if_neg hle, List.append_assoc, ← hstart, Nat.add_sub_cancel_left,
    Text.splitBytes_byteLength]
  dsimp only
  rw [hstart, ← hstop, Nat.add_sub_cancel_left, Text.splitBytes_byteLength]

/-- A change that takes nothing away is made where the text before its place is known. -/
theorem piecesFrom_insert {offset place : Nat} {kept rest : List Char} (change : Change)
    (more : List (Span × Change)) (hplace : offset + Text.byteLength kept = place) :
    piecesFrom offset (kept ++ rest) ((⟨place, place⟩, change) :: more) =
      .kept kept :: .changed ⟨place, place⟩ [] change :: piecesFrom place rest more := by
  have h := @piecesFrom_cons offset kept [] rest ⟨place, place⟩ change more hplace rfl
  rwa [List.append_nil] at h

theorem before_piecesFrom (offset : Nat) (text : List Char) (changes : List (Span × Change)) :
    (piecesFrom offset text changes).flatMap Piece.before = text := by
  induction changes generalizing offset text with
  | nil => simp [piecesFrom, Piece.before]
  | cons one more ih =>
    obtain ⟨span, change⟩ := one
    rw [piecesFrom]
    split
    · exact ih offset text
    · simp only [List.flatMap_cons, Piece.before, ih, Text.splitBytes_append]

theorem after_piecesFrom (offset : Nat) (text : List Char) (changes : List (Span × Change)) :
    (piecesFrom offset text changes).flatMap Piece.after =
      Edit.applyFrom offset text (changes.map edit) := by
  induction changes generalizing offset text with
  | nil => simp [piecesFrom, Piece.after, Edit.applyFrom]
  | cons one more ih =>
    obtain ⟨span, change⟩ := one
    rw [piecesFrom, List.map_cons, Edit.applyFrom]
    change _ = if span.start < offset then _ else _
    split
    · exact ih offset text
    · simp only [List.flatMap_cons, Piece.after, ih, edit, List.append_assoc]

/-- In the module the pieces are its text. -/
theorem before_pieces (plan : Plan) (source : List Char) :
    (plan.pieces source).flatMap Piece.before = source :=
  before_piecesFrom 0 source _

/-- In the lowered module the pieces are the text after the edits. -/
theorem after_pieces (plan : Plan) (source : List Char) :
    (plan.pieces source).flatMap Piece.after = Edit.apply source plan.edits := by
  rw [pieces, after_piecesFrom, map_inOrder]
  rfl

theorem mem_of_piecesFrom {offset : Nat} {text : List Char} {changes : List (Span × Change)}
    {span : Span} {old : List Char} {change : Change}
    (h : .changed span old change ∈ piecesFrom offset text changes) : (span, change) ∈ changes := by
  induction changes generalizing offset text with
  | nil =>
    obtain ⟨⟩ := List.mem_singleton.1 h
  | cons one more ih =>
    rw [piecesFrom] at h
    split at h
    · exact .tail _ (ih h)
    · rcases List.mem_cons.1 h with h | h
      · cases h
      · rcases List.mem_cons.1 h with h | h
        · cases h
          exact .head _
        · exact .tail _ (ih h)

/-- Only changes of the plan are made. -/
theorem mem_changes_of_pieces {plan : Plan} {source : List Char} {span : Span} {old : List Char}
    {change : Change} (h : .changed span old change ∈ plan.pieces source) :
    (span, change) ∈ plan.changes :=
  plan.inOrder_perm.mem_iff.1 (mem_of_piecesFrom h)

theorem flatMap_piecesFrom {β : Type} (f : Span × Change → List β) {offset : Nat}
    {changes : List (Span × Change)} (text : List Char)
    (hoffset : ∀ one ∈ changes, f one ≠ [] → offset ≤ one.1.start)
    (hapart : changes.Pairwise fun one other => f other ≠ [] → one.1.stop ≤ other.1.start) :
    ((piecesFrom offset text changes).filterMap Piece.change?).flatMap f = changes.flatMap f := by
  induction changes generalizing offset text with
  | nil => rfl
  | cons one more ih =>
    obtain ⟨span, change⟩ := one
    obtain ⟨hfirst, hmore⟩ := List.pairwise_cons.1 hapart
    rw [piecesFrom]
    split
    next hlt =>
      -- A change that starts in what was replaced is left out, so it must not count.
      have hnone : f (span, change) = [] := by
        by_contra hne
        have : offset ≤ span.start := hoffset _ (.head _) hne
        omega
      rw [ih text (fun one hone => hoffset one (.tail _ hone)) hmore, List.flatMap_cons, hnone,
        List.nil_append]
    next =>
      simp only [List.filterMap_cons, Piece.change?, List.flatMap_cons, ih _ hfirst hmore]

/-- The changes that no other one is in the way of are among the pieces, each once and in the
    order in which they are tried. -/
theorem flatMap_pieces {β : Type} (f : Span × Change → List β) (plan : Plan) (source : List Char)
    (hapart : plan.inOrder.Pairwise fun one other => f other ≠ [] → one.1.stop ≤ other.1.start) :
    ((plan.pieces source).filterMap Piece.change?).flatMap f = plan.inOrder.flatMap f :=
  flatMap_piecesFrom f source (fun _ _ _ => Nat.zero_le _) hapart

end Plan

/-! ### Calls -/

/-- The modules that a statement asks for. -/
def Statement.requires : Statement → List String
  | .require specifier | .bindRequire _ specifier => [specifier]
  | _ => []

/-- The modules that a change asks for. -/
def Change.requires : Change → List String
  | .statements written => written.flatMap Statement.requires
  | _ => []

/-- The modules that a change asks for, with its place. -/
def requests (one : Span × Change) : List (Span × String) :=
  one.2.requires.map fun specifier => (one.1, specifier)

theorem mem_requests {one : Span × Change} {call : Span × String} :
    call ∈ requests one ↔ call.1 = one.1 ∧ call.2 ∈ one.2.requires := by
  obtain ⟨span, specifier⟩ := call
  simp only [requests, List.mem_map, Prod.mk.injEq]
  constructor
  · rintro ⟨_, hmem, rfl, rfl⟩
    exact ⟨rfl, hmem⟩
  · rintro ⟨rfl, hmem⟩
    exact ⟨specifier, hmem, rfl, rfl⟩

/-- The calls in pieces that ask for modules, in order, each with the place of its change. -/
def calls (pieces : List Piece) : List (Span × String) :=
  (pieces.filterMap Piece.change?).flatMap requests

theorem Statement.text_require (specifier : String) :
    (require specifier).text = requireText specifier ++ ";" := rfl

theorem Statement.text_bindRequire (holder specifier : String) :
    (bindRequire holder specifier).text =
      "var " ++ holder ++ " = " ++ requireText specifier ++ ";" := rfl

theorem Statement.infix_text {statement : Statement} {specifier : String}
    (h : specifier ∈ statement.requires) :
    (requireText specifier).toList <:+: statement.text.toList := by
  cases statement with
  | require other =>
    cases List.mem_singleton.1 h
    exact ⟨[], ";".toList, by
      rw [text_require, String.toList_append, List.nil_append]⟩
  | bindRequire holder other =>
    cases List.mem_singleton.1 h
    exact ⟨("var " ++ holder ++ " = ").toList, ";".toList, by
      simp only [text_bindRequire, String.toList_append]⟩
  | _ => cases h

theorem infix_intercalate {α : Type} {text : List α} {texts : List (List α)} (between : List α)
    (h : text ∈ texts) : text <:+: between.intercalate texts := by
  induction texts with
  | nil => cases h
  | cons first more ih =>
    rcases eq_or_ne more [] with rfl | hmore
    · obtain rfl := List.mem_singleton.1 h
      simp [List.intercalate]
    rw [List.intercalate_cons_of_ne_nil hmore, List.append_assoc]
    rcases List.mem_cons.1 h with rfl | h
    · exact (List.prefix_append _ _).isInfix
    · exact (ih h).trans ((List.suffix_append _ _).trans (List.suffix_append _ _)).isInfix

/-- A statement stands in the text of its change. -/
theorem Change.infix_statement {written : List Statement} {statement : Statement}
    (h : statement ∈ written) :
    statement.text.toList <:+: (Change.statements written).text.toList := by
  rw [text, Statement.lines, String.toList_intercalate, List.map_map]
  exact infix_intercalate _ (List.mem_map.2 ⟨statement, h, rfl⟩)

/-- A call that asks for a module stands in the text of its change. -/
theorem Change.infix_text {change : Change} {specifier : String}
    (h : specifier ∈ change.requires) :
    (Statement.requireText specifier).toList <:+: change.text.toList := by
  cases change with
  | statements written =>
    obtain ⟨statement, hmem, hspecifier⟩ := List.mem_flatMap.1 h
    exact (Statement.infix_text hspecifier).trans (infix_statement hmem)
  | _ => cases h

/-- Each call stands in the text of a piece. -/
theorem written_of_mem_calls {pieces : List Piece} {call : Span × String}
    (h : call ∈ calls pieces) :
    ∃ old change, .changed call.1 old change ∈ pieces ∧
      (Statement.requireText call.2).toList <:+: change.text.toList := by
  obtain ⟨⟨span, change⟩, hchange, hcall⟩ := List.mem_flatMap.1 h
  obtain ⟨hspan, hrequires⟩ := mem_requests.1 hcall
  obtain ⟨piece, hpiece, heq⟩ := List.mem_filterMap.1 hchange
  cases piece with
  | kept => cases heq
  | changed other old written =>
    cases heq
    exact ⟨old, change, hspan ▸ hpiece, Change.infix_text hrequires⟩

/-! ### Definitions -/

/-- The names that a statement defines on the exports of a module, but for all that another
    module has. -/
def Statement.defines : Statement → List String
  | .getter name _ => [name]
  | _ => []

/-- The names that a change defines on the exports of a module. -/
def Change.defines : Change → List String
  | .statements written => written.flatMap Statement.defines
  | .prologue exports => exports.map (·.1)
  | .assignDefault => [Script.TopLevel.defaultName]
  | _ => []

/-- The names that pieces define on the exports of a module, in order. -/
def definitions (pieces : List Piece) : List String :=
  (pieces.filterMap Piece.change?).flatMap fun one => one.2.defines

/-- A name that a change defines is assigned there, or its getter stands in the text. -/
theorem Change.infix_getter {change : Change} {name : String} (h : name ∈ change.defines) :
    (change = .assignDefault ∧ name = Script.TopLevel.defaultName) ∨
      ∃ value, (Statement.getter name value).text.toList <:+: change.text.toList := by
  cases change with
  | assignDefault => exact .inl ⟨rfl, List.mem_singleton.1 h⟩
  | statements written =>
    obtain ⟨statement, hmem, hname⟩ := List.mem_flatMap.1 h
    cases statement with
    | getter other value =>
      obtain rfl := List.mem_singleton.1 hname
      exact .inr ⟨value, infix_statement hmem⟩
    | _ => cases hname
  | prologue exports =>
    obtain ⟨⟨name, value⟩, hmem, rfl⟩ := List.mem_map.1 h
    refine .inr ⟨value, ?_⟩
    have hgetter : Statement.getter name value ∈
        .mark :: exports.map fun one => Statement.getter one.1 one.2 :=
      .tail _ (List.mem_map.2 ⟨_, hmem, rfl⟩)
    have hline := List.mem_map_of_mem (f := fun statement => (statement.text ++ "\n").toList) hgetter
    rw [text, String.toList_append, String.toList_intercalate, List.map_map]
    refine List.IsInfix.trans ?_ ((infix_intercalate _ hline).trans (List.suffix_append _ _).isInfix)
    rw [String.toList_append]
    exact (List.prefix_append _ _).isInfix
  | _ => cases h

end Lowering

end Bundler

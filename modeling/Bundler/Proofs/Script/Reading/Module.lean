import Bundler.Proofs.Script.Reading.Statement
import Bundler.Script.Parser.Module

/-!
# Where the statements at the top stand

Imports and exports go forward with their readers. The offsets at which such a statement may be
cut fall into none of its names, and into no character of the text.

* `TopLevel.cuts`: the offsets at which a statement at the top may be cut;
* `TopLevel.Stands`: where a statement stands, with its names and its cuts;
* `TopLevel.Found`: a statement that stands somewhere in a text;
* `topLevel_reads`: a statement stands where it was read.
-/

namespace Bundler.Script

open Std.Do

set_option mvcgen.warning false

/-- An offset that falls into none of the names. -/
def Clear (offset : Nat) (ids : List Ident) : Prop :=
  ∀ id ∈ ids, id.span.stop ≤ offset ∨ offset ≤ id.span.start

namespace Clear

variable [Whole] {offset lo hi : Nat} {ids more : List Ident}

omit [Whole] in
@[grind =] theorem nil_iff : Clear offset [] ↔ True := by
  simp [Clear]

omit [Whole] in
@[grind =] theorem append_iff :
    Clear offset (ids ++ more) ↔ Clear offset ids ∧ Clear offset more := by
  simp only [Clear, List.mem_append]
  grind

theorem of_le (h : Row lo ids hi) (hle : offset ≤ lo) : Clear offset ids := fun id hid =>
  .inr (Nat.le_trans hle (h.bounds id hid).1)

theorem of_ge (h : Row lo ids hi) (hge : hi ≤ offset) : Clear offset ids := fun id hid =>
  .inl (Nat.le_trans (h.bounds id hid).2 hge)

grind_pattern of_le => Row lo ids hi, Clear offset ids
grind_pattern of_ge => Row lo ids hi, Clear offset ids

end Clear

/-- The decorators of a class. -/
def Node.decorators : Node → List Node
  | .classDef _ decorators .. => decorators
  | _ => []

namespace TopLevel

/-- The offset of the parameters of a function that has no name. -/
def paramsStart? : Node → Option Nat
  | .func _ ⟨_, _, false⟩ none paramsSpan _ _ => some paramsSpan.start
  | _ => none

/-- The offsets at which a statement may be cut: those of an import or export, and of what is
    declared or exported in it. -/
def cuts : TopLevel → List Nat
  | .statement _ => []
  | .importFrom span _ _ | .exportNames span _ _ | .exportAll span _ _ => [span.start, span.stop]
  | .exportDeclaration span declaration => [span.start, declaration.start]
  | .exportDefault span value => [span.start, value.start, span.stop] ++ (paramsStart? value).toList

/-- What a statement exports, if it stands in it. -/
def exported? : TopLevel → Option Node
  | .exportDeclaration _ value | .exportDefault _ value => some value
  | _ => none

/-- Where a statement at the top stands. -/
structure Stands (lo : Nat) (statement : TopLevel) (hi : Nat) : Prop where
  /-- Its names stand one after another. -/
  chain : Chain lo statement.idents hi
  /-- It is cut between the offsets. -/
  bounds : ∀ cut ∈ statement.cuts, lo ≤ cut ∧ cut ≤ hi
  /-- It is cut in no name. -/
  clear : ∀ cut ∈ statement.cuts, Clear cut statement.idents
  /-- A plain statement starts and ends between the offsets. -/
  span_bounds : ∀ node, statement = .statement node →
    lo ≤ node.start ∧ node.start ≤ node.span.stop ∧ node.span.stop ≤ hi
  /-- The word that it starts with stands between its first two cuts, and the others behind
      them. -/
  ordered : ∀ start stop more, statement.cuts = start :: stop :: more →
    start < stop ∧ ∀ cut ∈ more, stop ≤ cut
  /-- At its first cut no name starts. -/
  opens : ∀ cut ∈ statement.cuts.head?, ∀ id ∈ statement.idents, id.span.start ≠ cut
  /-- What is exported has no names before it, unless it has decorators. -/
  plain : ∀ value ∈ statement.exported?, value.decorators = [] →
    ∀ id ∈ statement.idents, value.start ≤ id.span.start
  /-- A list of exported names ends behind them. -/
  closes : ∀ span specifiers, statement = .exportNames span specifiers none →
    ∀ id ∈ statement.idents, id.span.stop < span.stop

/-- Where a statement at the top stands in the text. -/
structure Found [Whole] (lo : Nat) (statement : TopLevel) (hi : Nat) : Prop extends
    statement.Stands lo hi where
  /-- Its names start and end between two characters. -/
  marked : ∀ id ∈ statement.idents, IsMark id.span.start ∧ IsMark id.span.stop
  /-- It is cut between two characters. -/
  cuts_marked : ∀ cut ∈ statement.cuts, IsMark cut
  /-- A plain statement ends between two characters. -/
  stop_marked : ∀ node, statement = .statement node → IsMark node.span.stop

end TopLevel

namespace Parser

variable [Whole] {reader : Reader} {state : State}

@[spec] theorem moduleName_reads : Reads moduleName state fun name now =>
    name.span = state.token.span ∧ now.stop = state.token.span.stop ∧
      state.token.span.start < state.token.span.stop := by
  unfold moduleName
  mvcgen
  all_goals grind -linarith

theorem braced_reads {α : Type} (names : α → List Ident) {element : ParserM α}
    (helement : ∀ state, Reads element state fun a now =>
      Row state.token.span.start (names a) now.stop) :
    Reads (braced element) state fun found now =>
      state.token.span.start < now.stop ∧
        Row state.token.span.start (found.flatMap names) (now.stop - 1) := by
  unfold braced
  rw [reads_placed]
  intro hp
  have hstart := hp.token.start_le
  refine reads_bind (expect_reads _) fun _ opened ho hstop => ?_
  apply repeated_reads fun acc now => state.token.span.start ≤ now.stop ∧
    Row state.token.span.start (acc.1.reverse.flatMap names) now.stop
  · intro hp
    exact ⟨Nat.le_trans hstart hstop, .nil _ _⟩
  · intro now acc hn hi
    have hn := ho.trans hn
    mvcgen [helement, eat?_takes, -eat?_reads]
    all_goals grind -linarith

@[spec] theorem importAttribute_reads : Reads importAttribute state fun _ _ => True := by
  unfold importAttribute
  mvcgen
  all_goals grind -linarith

@[spec] theorem importAttributes_reads : Reads importAttributes state fun _ _ => True := by
  unfold importAttributes
  have hbraced := fun state => @braced_reads _ state _ (fun _ => []) _ fun _ =>
    reads_mono importAttribute_reads fun _ _ _ _ => .nil _ _
  mvcgen [hbraced, forIn_reads, -Spec.forIn_list]
  all_goals grind -linarith

@[spec] theorem source_reads : Reads source state fun _ now =>
    state.token.span.stop ≤ now.stop := by
  unfold source
  mvcgen
  all_goals grind -linarith

/-! ### Imports -/

@[spec] theorem importSpecifier_reads : Reads importSpecifier state fun found now =>
    Row state.token.span.start [TopLevel.importedId found] now.stop := by
  unfold importSpecifier
  mvcgen
  all_goals grind -linarith [TopLevel.importedId]

@[spec] theorem wholeModule_reads : Reads wholeModule state fun found now =>
    Row state.token.span.start [TopLevel.importedId found] now.stop := by
  unfold wholeModule
  mvcgen
  all_goals grind -linarith [TopLevel.importedId]

@[spec] theorem importedBindings_reads : Reads importedBindings state fun found now =>
    Row state.token.span.start (found.map TopLevel.importedId) now.stop := by
  unfold importedBindings
  have hbraced := fun state => reads_mono (@braced_reads _ state _
    (fun found => [TopLevel.importedId found]) _ fun _ => importSpecifier_reads)
    fun found now _ (h : _ ∧ Row _ (found.flatMap _) _) => List.map_eq_flatMap ▸ h
  mvcgen [hbraced]
  all_goals grind -linarith

@[spec] theorem importPhase_reads : Reads importPhase state fun _ _ => True := by
  unfold importPhase
  mvcgen
  all_goals grind -linarith

theorem importDeclaration_reads : Reads importDeclaration state fun statement now =>
    ∃ span specifiers source, statement = .importFrom span specifiers source ∧
      span.start = state.token.span.start ∧ span.start < span.stop ∧ span.stop = now.stop ∧
      Row (span.start + 1) ((specifiers.getD []).map TopLevel.importedId) span.stop := by
  unfold importDeclaration
  mvcgen
  all_goals grind -linarith [TopLevel.importedId]

/-! ### Exports -/

@[spec] theorem exportSpecifier_reads : Reads exportSpecifier state fun found now =>
    Row state.token.span.start [found.ident] now.stop := by
  unfold exportSpecifier
  mvcgen
  all_goals grind -linarith [ExportSpecifier.ident]

@[spec] theorem exportList_reads (start : Nat) :
    Reads (exportList start) state fun statement now =>
      ∃ span specifiers source, statement = .exportNames span specifiers source ∧
        span.start = start ∧ span.stop = now.stop ∧ state.token.span.start < span.stop ∧
        Row state.token.span.start (specifiers.map ExportSpecifier.ident) (span.stop - 1) := by
  unfold exportList
  have hbraced := fun state => reads_mono (@braced_reads _ state _
    (fun found : ExportSpecifier => [found.ident]) _ fun _ => exportSpecifier_reads)
    fun found now _ (h : _ ∧ Row _ (found.flatMap _) _) => List.map_eq_flatMap ▸ h
  mvcgen [hbraced, forIn_reads, -Spec.forIn_list]
  all_goals grind -linarith

@[spec] theorem exportAll_reads (start : Nat) :
    Reads (exportAll start) state fun statement now =>
      ∃ span exported source, statement = .exportAll span exported source ∧
        span.start = start ∧ span.stop = now.stop ∧ state.token.span.start ≤ span.stop := by
  unfold exportAll
  mvcgen
  all_goals grind -linarith

@[spec] theorem exportDecorators_reads (hreader : reader.Keeps) (given : List Node) :
    Reads (exportDecorators reader given) state fun found now =>
      ∃ more, found = given ++ more ∧
        Row state.token.span.start (Node.identsOf more) now.stop := by
  unfold exportDecorators
  mvcgen
  all_goals grind -linarith

@[spec] theorem undecorated_reads (decorators : List Node) :
    Reads (undecorated decorators) state fun _ now => decorators = [] ∧
      now.token = state.token ∧ now.stop = state.stop := by
  unfold undecorated
  mvcgen
  all_goals grind -linarith

/-- What is exported stands after the decorators before its export. -/
structure Exported (given : List Node) (node : Node) (lo hi after : Nat) : Prop where
  /-- The names of the decorators come first. -/
  idents : ∃ more, node.idents = Node.identsOf given ++ more ∧ Row lo more hi ∧
    Clear node.start more
  /-- It starts after the decorators. -/
  start_le : lo ≤ node.start ∧ node.start ≤ after
  /-- The names of a function without a name stand in its parameters and its body. -/
  params : ∀ offset, TopLevel.paramsStart? node = some offset →
    node.start ≤ offset ∧ offset ≤ after ∧ IsMark offset ∧ Clear offset node.idents
  /-- It starts between two characters. -/
  marked : IsMark node.start
  /-- It has no names before it, unless it has decorators. -/
  plain : node.decorators = [] → ∀ id ∈ node.idents, node.start ≤ id.span.start

attribute [grind cases] Exported

omit [Whole] in
theorem paramsStart?_eq_some {node : Node} {offset : Nat}
    (h : TopLevel.paramsStart? node = some offset) : ∃ span shape paramsSpan params code,
      node = .func span shape none paramsSpan params code ∧ shape.isArrow = false ∧
        paramsSpan.start = offset := by
  unfold TopLevel.paramsStart? at h
  split at h
  next span isAsync isGenerator paramsSpan params code =>
    exact ⟨span, ⟨isAsync, isGenerator, false⟩, paramsSpan, params, code, rfl, rfl,
      Option.some.inj h⟩
  next => cases h

namespace Exported

variable {given more : List Node} {node : Node} {lo lo' mid hi after : Nat}

theorem weaken (h : Exported given node lo' hi after) (hlo : lo ≤ lo') :
    Exported given node lo hi after where
  idents := by
    obtain ⟨more, hids, hchain, hclear⟩ := h.idents
    exact ⟨more, hids, hchain.weaken hlo (Nat.le_refl _), hclear⟩
  start_le := ⟨Nat.le_trans hlo h.start_le.1, h.start_le.2⟩
  params := h.params
  marked := h.marked
  plain := h.plain

theorem ofClass {span bodySpan : Span} {id : Option Ident} {parent : Option Node}
    {elements : List Node} (hm : Row lo' (Node.identsOf more) mid)
    (hrest : Row span.start (id.toList ++ (Node.identsIn parent ++ Node.identsOf elements)) hi)
    (hlo : lo ≤ lo') (hstart : lo' ≤ span.start) (hmid : mid ≤ span.start)
    (hafter : span.start ≤ after) (hhi : mid ≤ hi) (hmark : IsMark span.start) :
    Exported given (.classDef span (given ++ more) id parent bodySpan elements) lo hi after where
  idents := by
    refine ⟨Node.identsOf more ++ (id.toList ++ (Node.identsIn parent ++ Node.identsOf elements)),
      ?_, ?_, ?_⟩
    · simp only [Node.idents, Node.identsOf_append, List.append_assoc]
    · exact (hm.append hrest hmid hstart hhi).weaken hlo (Nat.le_refl _)
    · exact Clear.append_iff.2 ⟨.of_ge hm hmid, .of_le hrest (Nat.le_refl _)⟩
  start_le := ⟨Nat.le_trans hlo hstart, hafter⟩
  params _ h := nomatch h
  marked := hmark
  plain hnone id hid := by
    have hnone : given ++ more = [] := hnone
    rw [Node.idents, hnone] at hid
    exact (hrest.bounds id hid).1

theorem ofFunction {span paramsSpan : Span} {shape : FunctionShape} {id : Option Ident}
    {params : List Node} {code : Node}
    (h : Row lo' (Node.func span shape id paramsSpan params code).idents hi)
    (hparams : Row paramsSpan.start (Node.identsOf params ++ code.idents) hi)
    (hlo : lo ≤ span.start) (hstart : span.start ≤ lo') (hlop : lo' ≤ paramsSpan.start)
    (hafter : paramsSpan.start ≤ after) (hmark : IsMark span.start)
    (hparamsMark : IsMark paramsSpan.start) :
    Exported [] (.func span shape id paramsSpan params code) lo hi after where
  idents := ⟨_, rfl, h.weaken (Nat.le_trans hlo hstart) (Nat.le_refl _), .of_le h hstart⟩
  start_le := ⟨hlo, Nat.le_trans hstart (Nat.le_trans hlop hafter)⟩
  params offset hoffset := by
    obtain ⟨_, _, _, _, _, heq, -, rfl⟩ := paramsStart?_eq_some hoffset
    cases heq
    refine ⟨Nat.le_trans hstart hlop, hafter, hparamsMark, ?_⟩
    simpa only [Node.idents, Option.toList_none, List.nil_append] using
      Clear.of_le hparams (Nat.le_refl _)
  marked := hmark
  plain _ id hid := Nat.le_trans hstart (h.bounds id hid).1

theorem ofValue {state now : State} (h : Spans node state now)
    (hstart : node.start = state.token.span.start) (hlo : lo ≤ state.token.span.start)
    (hhi : now.stop ≤ hi) (hnow : now.stop ≤ after) (hafter : state.token.span.start ≤ after)
    (hmark : IsMark state.token.span.start) : Exported [] node lo hi after where
  idents := ⟨_, rfl, h.chain.weaken hlo hhi, .of_le h.chain (Nat.le_of_eq hstart)⟩
  start_le := ⟨hstart ▸ hlo, hstart ▸ hafter⟩
  params offset hoffset := by
    obtain ⟨span, shape, paramsSpan, params, code, rfl, harrow, rfl⟩ :=
      paramsStart?_eq_some hoffset
    obtain ⟨hle, hstop, hparamsMark, hrow⟩ := h.params _ _ _ _ _ rfl harrow
    exact ⟨hle, Nat.le_trans hstop hnow, hparamsMark, .of_le hrow (Nat.le_refl _)⟩
  marked := hstart ▸ hmark
  plain _ id hid := hstart ▸ (h.chain.bounds id hid).1

grind_pattern ofClass =>
  Exported given (.classDef span (given ++ more) id parent bodySpan elements) lo hi after,
  Row lo' (Node.identsOf more) mid
grind_pattern ofFunction => Exported [] (.func span shape id paramsSpan params code) lo hi after,
  Row lo' (Node.func span shape id paramsSpan params code).idents hi
grind_pattern ofValue => Exported [] node lo hi after, Spans node state now

end Exported

@[spec] theorem exportDefault_reads (hreader : reader.Keeps) (start : Nat) (given : List Node) :
    Reads (exportDefault reader start given) state fun statement now =>
      ∃ span value, statement = .exportDefault span value ∧ span.start = start ∧
        span.stop = now.stop ∧
        Exported given value state.token.span.start span.stop span.stop := by
  unfold exportDefault
  have hr := hreader.reads
  mvcgen [hr]
  all_goals grind -linarith [Node.span, Node.start, List.append_eq_nil_iff]

theorem Exported.ofVariables {given : List Node} {span : Span} {kind : VarKind}
    {declarators : List Node} {lo lo' hi after : Nat}
    (h : Row lo' (Node.identsOf declarators) hi) (hgiven : given = []) (hlo : lo ≤ span.start)
    (hstart : span.start ≤ lo') (hafter : span.start ≤ after) (hmark : IsMark span.start) :
    Exported given (.varDeclaration span kind declarators) lo hi after where
  idents := ⟨_, by rw [hgiven]; rfl, h.weaken (Nat.le_trans hlo hstart) (Nat.le_refl _),
    .of_le h hstart⟩
  start_le := ⟨hlo, hafter⟩
  params _ h := nomatch h
  marked := hmark
  plain _ id hid := Nat.le_trans hstart (h.bounds id hid).1

grind_pattern Exported.ofVariables =>
  Exported given (.varDeclaration span kind declarators) lo hi after,
  Row lo' (Node.identsOf declarators) hi

@[spec] theorem exportedDeclaration_reads (hreader : reader.Keeps) (given : List Node) :
    Reads (exportedDeclaration reader given) state fun node now =>
      Exported given node state.token.span.start now.stop now.token.span.start := by
  unfold exportedDeclaration
  mvcgen
  all_goals grind -linarith [Node.span, Node.start, List.append_eq_nil_iff]

/-! ### Statements at the top -/

end Parser

namespace TopLevel.Found

open Bundler.Script.Parser (Exported)

variable [Whole] {lo mid hi : Nat} {span : Span} {given : List Node}

theorem ofSpan {statement : TopLevel} (hcuts : statement.cuts = [span.start, span.stop])
    (hnot : ∀ node, statement ≠ .statement node) (hexported : statement.exported? = none)
    (hrow : Row (span.start + 1) statement.idents mid) (hmid : mid ≤ span.stop)
    (hcloses : ∀ own specifiers, statement = .exportNames own specifiers none →
      own = span ∧ mid < span.stop)
    (hlo : lo ≤ span.start) (hspan : span.start < span.stop) (hhi : span.stop ≤ hi)
    (hmarks : IsMark span.start ∧ IsMark span.stop) : statement.Found lo hi where
  chain := hrow.toChain.weaken (Nat.le_succ_of_le hlo) (Nat.le_trans hmid hhi)
  bounds := by
    rw [hcuts]
    simp only [List.mem_cons, List.not_mem_nil, or_false, forall_eq_or_imp, forall_eq]
    omega
  clear := by
    rw [hcuts]
    simp only [List.mem_cons, List.not_mem_nil, or_false, forall_eq_or_imp, forall_eq]
    exact ⟨.of_le hrow (Nat.le_succ _), .of_ge hrow hmid⟩
  span_bounds node h := absurd h (hnot node)
  ordered start stop more h := by
    rw [hcuts] at h
    cases h
    exact ⟨hspan, nofun⟩
  opens := by
    rw [hcuts]
    rintro _ ⟨⟩ id hid
    exact Nat.ne_of_gt (hrow.bounds id hid).1
  plain value h := by
    rw [hexported] at h
    cases h
  closes own specifiers h id hid := by
    obtain ⟨rfl, hlt⟩ := hcloses own specifiers h
    exact Nat.lt_of_le_of_lt (hrow.bounds id hid).2 hlt
  marked := hrow.marked
  cuts_marked := by
    rw [hcuts]
    simpa only [List.mem_cons, List.not_mem_nil, or_false, forall_eq_or_imp, forall_eq] using hmarks
  stop_marked node h := absurd h (hnot node)

/-- No name starts between two rows of names. -/
theorem start_ne_of_rows {lo mid start hi : Nat} {ids more : List Ident} (h : Row lo ids mid)
    (hmid : mid ≤ start) (hmore : Row (start + 1) more hi) :
    ∀ id ∈ ids ++ more, id.span.start ≠ start := by
  intro id hid
  rcases List.mem_append.1 hid with hid | hid
  · have hfilled := h.filled id hid
    have hbounds := h.bounds id hid
    omega
  · exact Nat.ne_of_gt (hmore.bounds id hid).1

theorem ofDeclaration {declaration : Node} {stop : Nat}
    (hgiven : Row lo (Node.identsOf given) mid) (hmid : mid ≤ span.start) (hlo : lo ≤ span.start)
    (h : Exported given declaration (span.start + 1) stop hi) (hstop : stop ≤ hi)
    (hmidstop : mid ≤ stop) (hmark : IsMark span.start) :
    (TopLevel.exportDeclaration span declaration).Found lo hi := by
  obtain ⟨⟨more, hids, hrow, hclear⟩, ⟨hstart, hafter⟩, -, hstarts, hplain⟩ := h
  have hids' : (TopLevel.exportDeclaration span declaration).idents =
    Node.identsOf given ++ more := hids
  have hcuts : (TopLevel.exportDeclaration span declaration).cuts =
    [span.start, declaration.start] := rfl
  have hall := hgiven.append hrow (by omega) (by omega) hmidstop
  refine ⟨⟨?_, ?_, ?_, nofun, ?_, ?_, ?_, nofun⟩, ?_, ?_, nofun⟩
  · rw [hids']
    exact hall.toChain.weaken (Nat.le_refl _) hstop
  · rw [hcuts]
    simp only [List.mem_cons, List.not_mem_nil, or_false, forall_eq_or_imp, forall_eq]
    omega
  · rw [hcuts, hids']
    simp only [List.mem_cons, List.not_mem_nil, or_false, forall_eq_or_imp, forall_eq,
      Clear.append_iff]
    exact ⟨⟨.of_ge hgiven hmid, .of_le hrow (by omega)⟩, .of_ge hgiven (by omega), hclear⟩
  · rw [hcuts]
    rintro _ _ _ ⟨⟩
    exact ⟨hstart, nofun⟩
  · rw [hcuts, hids']
    rintro _ ⟨⟩
    exact start_ne_of_rows hgiven hmid hrow
  · rintro _ ⟨⟩
    exact hplain
  · rw [hids']
    exact hall.marked
  · rw [hcuts]
    simp only [List.mem_cons, List.not_mem_nil, or_false, forall_eq_or_imp, forall_eq]
    exact ⟨hmark, hstarts⟩

theorem ofDefault {value : Node} (hgiven : Row lo (Node.identsOf given) mid)
    (hmid : mid ≤ span.start) (hlo : lo ≤ span.start)
    (h : Exported given value (span.start + 1) span.stop span.stop) (hstop : span.stop ≤ hi)
    (hmarks : IsMark span.start ∧ IsMark span.stop) :
    (TopLevel.exportDefault span value).Found lo hi := by
  obtain ⟨⟨more, hids, hrow, hclear⟩, ⟨hstart, hafter⟩, hparams, hstarts, hplain⟩ := h
  have hids' : (TopLevel.exportDefault span value).idents =
    Node.identsOf given ++ more := hids
  have hcuts : (TopLevel.exportDefault span value).cuts =
    [span.start, value.start, span.stop] ++ (paramsStart? value).toList := rfl
  have hall := hgiven.append hrow (by omega) (by omega) (by omega)
  refine ⟨⟨?_, ?_, ?_, nofun, ?_, ?_, ?_, nofun⟩, ?_, ?_, nofun⟩
  · rw [hids']
    exact hall.toChain.weaken (Nat.le_refl _) hstop
  · rw [hcuts]
    simp only [List.mem_append, List.mem_cons, List.not_mem_nil, or_false, Option.mem_toList]
    rintro cut ((rfl | rfl | rfl) | hcut)
    · omega
    · omega
    · omega
    · have := hparams cut hcut
      omega
  · rw [hcuts]
    simp only [List.mem_append, List.mem_cons, List.not_mem_nil, or_false, Option.mem_toList]
    rintro cut ((rfl | rfl | rfl) | hcut)
    · rw [hids']
      exact Clear.append_iff.2 ⟨.of_ge hgiven hmid, .of_le hrow (by omega)⟩
    · rw [hids']
      exact Clear.append_iff.2 ⟨.of_ge hgiven (by omega), hclear⟩
    · rw [hids']
      exact Clear.append_iff.2 ⟨.of_ge hgiven (by omega), .of_ge hrow (Nat.le_refl _)⟩
    · exact (hparams cut hcut).2.2.2
  · rw [hcuts]
    rintro _ _ _ ⟨⟩
    refine ⟨hstart, fun cut hcut => ?_⟩
    rcases List.mem_cons.1 hcut with rfl | hcut
    · exact hafter
    · exact (hparams cut (Option.mem_toList.1 hcut)).1
  · rw [hcuts, hids']
    rintro _ ⟨⟩
    exact start_ne_of_rows hgiven hmid hrow
  · rintro _ ⟨⟩
    exact hplain
  · rw [hids']
    exact hall.marked
  · rw [hcuts]
    simp only [List.mem_append, List.mem_cons, List.not_mem_nil, or_false, Option.mem_toList]
    rintro cut ((rfl | rfl | rfl) | hcut)
    · exact hmarks.1
    · exact hstarts
    · exact hmarks.2
    · exact (hparams cut hcut).2.2.1

theorem ofStatement {node : Node} (hrow : Row lo node.idents hi)
    (hstart : lo ≤ node.start) (hfilled : node.start ≤ node.span.stop) (hstop : node.span.stop ≤ hi)
    (hmark : IsMark node.span.stop) :
    (TopLevel.statement node).Found lo hi where
  chain := hrow.toChain
  bounds _ h := absurd h List.not_mem_nil
  clear _ h := absurd h List.not_mem_nil
  span_bounds _ h := by
    cases h
    exact ⟨hstart, hfilled, hstop⟩
  ordered := nofun
  opens := nofun
  plain := nofun
  closes := nofun
  marked := hrow.marked
  cuts_marked _ h := absurd h List.not_mem_nil
  stop_marked _ h := by
    cases h
    exact hmark

grind_pattern ofStatement => TopLevel.Found lo (.statement node) hi

end TopLevel.Found

theorem TopLevel.Stands.weaken {lo lo' hi : Nat} {statement : TopLevel} (h : statement.Stands lo hi)
    (hlo : lo' ≤ lo) : statement.Stands lo' hi where
  chain := h.chain.weaken hlo (Nat.le_refl _)
  bounds cut hcut := ⟨Nat.le_trans hlo (h.bounds cut hcut).1, (h.bounds cut hcut).2⟩
  clear := h.clear
  span_bounds node heq :=
    ⟨Nat.le_trans hlo (h.span_bounds node heq).1, (h.span_bounds node heq).2⟩
  ordered := h.ordered
  opens := h.opens
  plain := h.plain
  closes := h.closes

/-- Statements at the top that stand one after another. -/
def StandIn (lo : Nat) : List TopLevel → Nat → Prop
  | [], hi => lo ≤ hi
  | statement :: more, hi =>
    ∃ mid, lo ≤ mid ∧ statement.Stands lo mid ∧ StandIn mid more hi

theorem StandIn.snoc {lo mid hi : Nat} {body : List TopLevel} {statement : TopLevel}
    (h : StandIn lo body mid) (hs : statement.Stands mid hi) (hle : mid ≤ hi) :
    StandIn lo (body ++ [statement]) hi := by
  induction body generalizing lo with
  | nil => exact ⟨hi, Nat.le_trans h hle, hs.weaken h, Nat.le_refl _⟩
  | cons first more ih =>
    obtain ⟨next, hnext, hfirst, hmore⟩ := h
    exact ⟨next, hnext, hfirst, ih hmore⟩

/-- Statements that stand one after another in the text. -/
structure FoundIn [Whole] (lo : Nat) (body : List TopLevel) (hi : Nat) : Prop where
  /-- They stand one after another. -/
  stand : StandIn lo body hi
  /-- Each of them stands in the text. -/
  found : ∀ statement ∈ body, ∃ lo hi, statement.Found lo hi

theorem FoundIn.snoc [Whole] {lo mid hi : Nat} {body : List TopLevel} {statement : TopLevel}
    (h : FoundIn lo body mid) (hs : statement.Found mid hi) (hle : mid ≤ hi) :
    FoundIn lo (body ++ [statement]) hi := by
  refine ⟨h.stand.snoc hs.toStands hle, fun other hother => ?_⟩
  rcases List.mem_append.1 hother with hother | hother
  · exact h.found other hother
  · obtain rfl := List.mem_singleton.1 hother
    exact ⟨mid, hi, hs⟩

namespace Parser

variable [Whole] {reader : Reader} {state : State}

@[spec] theorem importDeclaration_found : Reads importDeclaration state fun statement now =>
    statement.Found state.token.span.start now.token.span.start := by
  rw [reads_placed]
  intro hp
  refine reads_mono importDeclaration_reads ?_
  rintro _ now hnow ⟨span, specifiers, source, rfl, hstart, hle, hstop, hrow⟩
  refine .ofSpan rfl nofun rfl hrow (Nat.le_refl _) nofun (Nat.le_of_eq hstart.symm) hle
    (hstop ▸ hnow.placed.stop_le) ⟨hstart ▸ hp.left.mark_start, hstop ▸ hnow.placed.left.stop_mark⟩

@[spec] theorem exportDeclaration_reads (hreader : reader.Keeps) (given : List Node) :
    Reads (exportDeclaration reader given) state fun statement now =>
      ∀ lo, Row lo (Node.identsOf given) state.stop → lo ≤ state.token.span.start →
        statement.Found lo now.token.span.start := by
  unfold exportDeclaration
  rw [reads_placed]
  intro hp
  have hle := hp.stop_le
  have hmark := hp.left.mark_start
  refine reads_bind here_reads ?_
  rintro _ state - ⟨rfl, rfl⟩
  refine reads_bind read_reads ?_
  rintro _ state - rfl
  extract_lets rest
  have hrest : ∀ u now, now.Follows state → now.token = state.token →
      Reads (rest u) now fun statement after => ∀ lo, Row lo (Node.identsOf given) state.stop →
        lo ≤ state.token.span.start → statement.Found lo after.token.span.start := by
    intro u now hn htoken
    refine reads_bind (expectWord_reads _) fun _ now hn' hword => ?_
    rw [htoken] at hword
    refine reads_bind token_reads ?_
    rintro _ now - ⟨rfl, rfl⟩
    rw [reads_placed]
    intro hnow
    have hnow := hnow.stop_le
    -- What stands behind `export` tells which of the four forms it is.
    split
    · refine reads_bind (undecorated_reads _) fun _ now hn _ => ?_
      refine reads_mono (exportList_reads _) ?_
      rintro _ after hafter ⟨span, specifiers, source, rfl, hstart, hstop, hle, hrow⟩ lo - hlo
      have hwhole : Row (span.start + 1) (specifiers.map ExportSpecifier.ident) (span.stop - 1) :=
        hrow.weaken (by grind -linarith) (Nat.le_refl _)
      have hbounds : span.start < span.stop ∧ span.stop ≤ after.token.span.start := by
        grind -linarith
      have hmarks : IsMark span.start ∧ IsMark span.stop :=
        ⟨hstart ▸ hmark, hstop ▸ hafter.placed.left.stop_mark⟩
      cases source with
      | none =>
        refine .ofSpan rfl nofun rfl hwhole (Nat.sub_le _ _) ?_ (hstart ▸ hlo) hbounds.1
          hbounds.2 hmarks
        rintro _ _ ⟨⟩
        exact ⟨rfl, Nat.sub_one_lt_of_lt hbounds.1⟩
      | some _ =>
        exact .ofSpan rfl nofun rfl (.nil _ _) (Nat.le_refl _) nofun (hstart ▸ hlo) hbounds.1
          hbounds.2 hmarks
    · refine reads_bind (undecorated_reads _) fun _ now hn _ => ?_
      refine reads_mono (exportAll_reads _) ?_
      rintro _ after hafter ⟨span, exported, source, rfl, hstart, hstop, hle⟩ lo - hlo
      exact .ofSpan rfl nofun rfl (.nil _ _) (Nat.le_refl _) nofun (hstart ▸ hlo)
        (by grind -linarith) (by grind -linarith)
        ⟨hstart ▸ hmark, hstop ▸ hafter.placed.left.stop_mark⟩
    · refine reads_mono (exportDefault_reads hreader _ _) ?_
      rintro _ after hafter ⟨span, value, rfl, hstart, hstop, hvalue⟩ lo hc hlo
      exact .ofDefault hc (by omega) (by omega) (hvalue.weaken (by omega)) (by grind -linarith)
        ⟨hstart ▸ hmark, hstop ▸ hafter.placed.left.stop_mark⟩
    · refine reads_bind (exportedDeclaration_reads hreader _) fun declaration after hafter hd => ?_
      refine reads_bind (spanFrom_reads _) ?_
      rintro _ after hplaced ⟨rfl, rfl⟩
      refine reads_mono (pure_reads _) ?_
      rintro _ after - ⟨rfl, rfl⟩ lo hc hlo
      have hstop := hplaced.placed.stop_le
      have hstops := hafter.stop_le
      have hstart : state.token.span.start + 1 ≤ now.token.span.start := by omega
      exact .ofDeclaration hc hle hlo (hd.weaken hstart) hstop (by omega) hmark
  clear_value rest
  apply reads_of
  intro goal hgoal
  mvcgen [hrest]
  all_goals grind -linarith

theorem topLevel_reads (hreader : reader.Keeps)
    (hstatement : ∀ state, Reads (reader (.statement false)) state fun node now =>
      Closes node state now) :
    Reads (topLevel reader) state fun statement now =>
      statement.Found state.token.span.start now.token.span.start := by
  unfold topLevel
  apply reads_of
  intro goal hgoal
  mvcgen [hstatement]
  all_goals grind -linarith [Node.idents]

theorem topLevels_reads (hreader : reader.Keeps)
    (hstatement : ∀ state, Reads (reader (.statement false)) state fun node now =>
      Closes node state now) :
    Reads (topLevels reader) state fun body now =>
      FoundIn state.token.span.start body now.token.span.start := by
  unfold topLevels
  have htop := fun state => @topLevel_reads _ reader state hreader hstatement
  apply repeated_reads fun acc now =>
    FoundIn state.token.span.start acc.reverse now.token.span.start
  · intro _
    exact ⟨Nat.le_refl _, nofun⟩
  · intro now acc hn hi
    mvcgen [htop]
    all_goals grind -linarith [FoundIn.snoc]

end Parser

end Bundler.Script

import Bundler.Bundle
import Bundler.Proofs.Text.Quoted
import Mathlib.Data.List.Infix

/-!
# What the text of a bundle tells

The text of a bundle can be taken apart again. Every part of it ends where it does: a quoted text
at its quote, a table at its brace, a code at the first place where what stands behind codes is
found. So from the text alone follow the modules of the graph in their order, with their
codes and tables, the entry, and whether cycles are strict.

* `SelfDelimiting`: parts that end where they do, whatever follows;
* `SelfDelimiting.flatMap_inj`: so do lists of them behind dividers;
* `append_divider_inj`: a text is over where a divider comes first;
* `Bundle.generate_inj`: what a bundle is made from.
-/

namespace Bundler

/-! ### Parts of a text -/

/-- What is written for some values ends where it does: from a text that starts with it follow the
    value and what comes after it. -/
def SelfDelimiting {α : Type} (admits : α → Prop) (write : α → List Char) : Prop :=
  ∀ a b, admits a → admits b → ∀ rest more, write a ++ rest = write b ++ more → a = b ∧ rest = more

/-- Values behind dividers, up to what closes them, if no divider can be taken for that. -/
theorem SelfDelimiting.flatMap_inj {α : Type} {admits : α → Prop} {write : α → List Char}
    (hwrite : SelfDelimiting admits write) {divider close : List Char}
    (hclose : ∀ rest more, divider ++ rest ≠ close ++ more) {values others : List α}
    (hvalues : ∀ a ∈ values, admits a) (hothers : ∀ a ∈ others, admits a) {rest more : List Char}
    (h : values.flatMap (divider ++ write ·) ++ (close ++ rest) =
      others.flatMap (divider ++ write ·) ++ (close ++ more)) :
    values = others ∧ rest = more := by
  induction values generalizing others with
  | nil =>
    cases others with
    | nil => exact ⟨rfl, List.append_cancel_left h⟩
    | cons b others =>
      rw [List.flatMap_cons, List.append_assoc, List.append_assoc] at h
      exact absurd h.symm (hclose _ _)
  | cons a values ih =>
    cases others with
    | nil =>
      rw [List.flatMap_cons, List.append_assoc, List.append_assoc] at h
      exact absurd h (hclose _ _)
    | cons b others =>
      rw [List.forall_mem_cons] at hvalues hothers
      simp only [List.flatMap_cons, List.append_assoc] at h
      obtain ⟨rfl, htail⟩ := hwrite a b hvalues.1 hothers.1 _ _ (List.append_cancel_left h)
      obtain ⟨rfl, hrest⟩ := ih hvalues.2 hothers.2 htail
      exact ⟨rfl, hrest⟩

theorem intercalate_cons (divider text : List Char) (texts : List (List Char)) :
    divider.intercalate (text :: texts) = text ++ texts.flatMap (divider ++ ·) := by
  induction texts generalizing text with
  | nil => simp [List.intercalate]
  | cons next texts ih =>
    rw [List.flatMap_cons, List.append_assoc, ← ih]
    simp [List.intercalate]

/-- A divider that no other one can overlap: no part at its start is one at its end. -/
def Unbordered (divider : List Char) : Prop :=
  ∀ part ∈ divider.tails, part <+: divider → part = [] ∨ part = divider

/-- Where one divider is found in the place of another one, there is nothing before it. -/
theorem Unbordered.eq_nil {divider gap rest more : List Char} (hd : Unbordered divider)
    (hgap : ¬divider <:+: gap) (h : divider ++ rest = gap ++ (divider ++ more)) : gap = [] := by
  rcases List.append_eq_append_iff.1 h with ⟨inside, rfl, -⟩ | ⟨part, hpart, hmore⟩
  · exact absurd ⟨[], inside, rfl⟩ hgap
  · have hshort : part.length ≤ divider.length := by
      rw [hpart, List.length_append]
      exact Nat.le_add_left _ _
    have hprefix : part <+: divider :=
      List.prefix_of_prefix_length_le ⟨rest, hmore.symm⟩ ⟨more, rfl⟩ hshort
    rcases hd part ((List.mem_tails _ _).2 ⟨gap, hpart.symm⟩) hprefix with rfl | rfl
    · rw [List.append_nil] at hpart
      exact absurd (hpart ▸ List.infix_rfl) hgap
    · exact List.self_eq_append_left.1 hpart

/-- A text in which there is no divider is over where one comes. -/
theorem append_divider_inj {divider text other rest more : List Char} (hd : Unbordered divider)
    (htext : ¬divider <:+: text) (hother : ¬divider <:+: other)
    (h : text ++ (divider ++ rest) = other ++ (divider ++ more)) : text = other ∧ rest = more := by
  rcases List.append_eq_append_iff.1 h with ⟨gap, rfl, hgap⟩ | ⟨gap, rfl, hgap⟩
  · have : gap = [] := hd.eq_nil (fun hin => hother (hin.trans (List.suffix_append _ _).isInfix)) hgap
    subst this
    exact ⟨(List.append_nil _).symm, List.append_cancel_left hgap⟩
  · have : gap = [] := hd.eq_nil (fun hin => htext (hin.trans (List.suffix_append _ _).isInfix)) hgap
    subst this
    exact ⟨List.append_nil _, (List.append_cancel_left hgap).symm⟩

/-! ### Tables -/

/-- The text of an entry of a table. -/
def entryText (entry : String × String) : List Char :=
  Json.quoted (Text.escapeAll entry.1.toList) ++
    ':' :: Json.quoted (Text.escapeAll entry.2.toList)

theorem selfDelimiting_entryText : SelfDelimiting (fun _ => True) entryText := by
  intro entry other _ _ rest more h
  simp only [entryText, List.append_assoc] at h
  obtain ⟨hname, htarget⟩ := Json.quoted_append_inj h
  obtain ⟨htarget, hrest⟩ := Json.quoted_append_inj (List.cons.inj htarget).2
  exact ⟨Prod.ext (String.toList_inj.1 hname) (String.toList_inj.1 htarget), hrest⟩

/-- The entries of a table stand behind each other, with commas between them. -/
theorem compactMembers_cons (entry : String × String) (entries : List (String × String)) :
    Json.compactMembers ((entry :: entries).map fun entry => Json.member entry.1 (.string entry.2)) =
      entryText entry ++ entries.flatMap ([','] ++ entryText ·) := by
  induction entries generalizing entry with
  | nil => simp [Json.compactMembers, Json.member, Json.compact, Json.string, entryText]
  | cons next entries ih =>
    rw [List.flatMap_cons, List.append_assoc, ← ih]
    simp [Json.compactMembers, Json.member, Json.compact, Json.string, entryText]

theorem selfDelimiting_tableText :
    SelfDelimiting (fun _ => True) fun table => (Bundle.tableText table).toList := by
  intro table other _ _ rest more h
  -- A table that has entries starts with a quote, and one without with the brace that closes it.
  have hentries : table.entries = other.entries ∧ rest = more := by
    simp only [Bundle.tableText, String.toList_ofList, Json.compact, List.cons_append,
      List.cons.injEq, true_and, List.append_assoc, List.nil_append] at h
    cases htable : table.entries with
    | nil =>
      cases hother : other.entries with
      | nil =>
        rw [htable, hother] at h
        exact ⟨rfl, (List.cons.inj h).2⟩
      | cons entry' entries' =>
        rw [htable, hother, compactMembers_cons] at h
        exact absurd (List.cons.inj h).1 (by decide)
    | cons entry entries =>
      cases hother : other.entries with
      | nil =>
        rw [htable, hother, compactMembers_cons] at h
        exact absurd (List.cons.inj h).1 (by decide)
      | cons entry' entries' =>
        rw [htable, hother, compactMembers_cons, compactMembers_cons, List.append_assoc,
          List.append_assoc] at h
        obtain ⟨rfl, htail⟩ := selfDelimiting_entryText entry entry' trivial trivial _ _ h
        have hclose (rest more : List Char) : [','] ++ rest ≠ ['}'] ++ more :=
          fun h => absurd (List.cons.inj h).1 (by decide)
        obtain ⟨rfl, hrest⟩ := selfDelimiting_entryText.flatMap_inj hclose (fun _ _ => trivial)
          (fun _ _ => trivial) htail
        exact ⟨rfl, hrest⟩
  obtain ⟨entries, _⟩ := table
  obtain ⟨entries', _⟩ := other
  obtain ⟨rfl, hrest⟩ := hentries
  exact ⟨rfl, hrest⟩

/-! ### Modules -/

namespace Bundle

/-- What stands in a bundle between the identifier of a module and its code. -/
def codeStart : String :=
  ": \x7b\nfactory: function (require, exports) \x7b\n\"use strict\";\n"

/-- What stands in a bundle between the code of a module and its table. -/
def codeEnd : String :=
  "\n\x7d,\ndependencies: "

/-- What stands in a bundle behind the table of a module. -/
def tableEnd : String :=
  "\n\x7d"

/-- The text of a module, as its parts stand behind each other. -/
theorem property_append (module : Module) (rest : List Char) :
    (property module).toList ++ rest =
      (Text.quote module.id).toList ++ (codeStart.toList ++ (module.code.toList ++
        (codeEnd.toList ++ ((tableText module.dependencies).toList ++
          (tableEnd.toList ++ rest))))) := by
  have h : property module =
      Text.quote module.id ++ codeStart ++ module.code ++ codeEnd ++
        tableText module.dependencies ++ tableEnd := rfl
  simp only [h, String.toList_append, List.append_assoc]

theorem unbordered_codeEnd : Unbordered codeEnd.toList := by
  unfold Unbordered codeEnd
  decide

/-- The text of a module ends where it does, if its code does not hold what stands behind codes. -/
theorem selfDelimiting_property :
    SelfDelimiting (fun module : Module => ¬codeEnd.toList <:+: module.code.toList)
      fun module => (property module).toList := by
  intro module other hmodule hother rest more h
  rw [property_append, property_append] at h
  obtain ⟨hid, hbody⟩ := Text.quote_append_inj h
  obtain ⟨hcode, htail⟩ := append_divider_inj unbordered_codeEnd hmodule hother
    (List.append_cancel_left hbody)
  obtain ⟨htable, hend⟩ := selfDelimiting_tableText _ _ trivial trivial _ _ htail
  refine ⟨?_, List.append_cancel_left hend⟩
  obtain ⟨id, code, dependencies⟩ := module
  obtain ⟨id', code', dependencies'⟩ := other
  obtain rfl : id = id' := hid
  obtain rfl : code = code' := String.toList_inj.1 hcode
  obtain rfl : dependencies = dependencies' := htable
  rfl

/-! ### Bundles -/

/-- What stands in a bundle between two modules. -/
def moduleDivider : String :=
  ",\n"

/-- What stands in a bundle between the last module and the entry. -/
def modulesEnd : String :=
  "\n\x7d, "

/-- No module begins where the modules end. -/
theorem moduleDivider_ne_modulesEnd (rest more : List Char) :
    moduleDivider.toList ++ rest ≠ modulesEnd.toList ++ more :=
  fun h => absurd (List.cons.inj h).1 (by decide)

/-- The text of a bundle that has modules, as its parts stand behind each other. -/
theorem render_append {graph : Graph} {module : Module} {modules : List Module}
    (hgraph : graph.modules = module :: modules) (entry : String) (strict : Bool) :
    (render graph entry strict).toList =
      loaderHead.toList ++ ((cyclesLine strict).toList ++ (loaderBody.toList ++ ("\x7b\n".toList ++
        ((property module).toList ++
          (modules.flatMap (fun module => moduleDivider.toList ++ (property module).toList) ++
            (modulesEnd.toList ++ ((Text.quote entry).toList ++ ");\n".toList))))))) := by
  have h : render graph entry strict =
      loaderHead ++ cyclesLine strict ++ loaderBody ++ "\x7b\n" ++
        moduleDivider.intercalate (graph.modules.map property) ++ modulesEnd ++
          Text.quote entry ++ ");\n" := rfl
  have hmodules : (moduleDivider.intercalate (graph.modules.map property)).toList =
      (property module).toList ++
        modules.flatMap (fun module => moduleDivider.toList ++ (property module).toList) := by
    rw [String.toList_intercalate, hgraph, List.map_cons, List.map_cons, intercalate_cons,
      List.map_map, List.flatMap_map]
    rfl
  simp only [h, hmodules, String.toList_append, List.append_assoc]

/-- The line about cycles tells whether they are strict. -/
theorem cyclesLine_append_inj {strict strict' : Bool} {rest more : List Char}
    (h : (cyclesLine strict).toList ++ rest = (cyclesLine strict').toList ++ more) :
    strict = strict' ∧ rest = more := by
  have hne (rest more : List Char) :
      (cyclesLine true).toList ++ rest ≠ (cyclesLine false).toList ++ more := by
    intro h
    have hvalue : some 't' = some 'f' := congrArg (·[19]?) h
    exact absurd hvalue (by decide)
  cases strict with
  | false =>
    cases strict' with
    | false => exact ⟨rfl, List.append_cancel_left h⟩
    | true => exact absurd h.symm (hne _ _)
  | true =>
    cases strict' with
    | false => exact absurd h (hne _ _)
    | true => exact ⟨rfl, List.append_cancel_left h⟩

theorem generate_eq_ok {graph : Graph} {entry : String} (hclosed : graph.isClosed = true)
    (hentry : graph.contains entry = true) (strict : Bool) :
    generate graph entry strict = .ok (render graph entry strict) := by
  simp [generate, fault?, hclosed, hentry]

/-- A graph that has an entry has modules. -/
theorem exists_modules_eq_cons {graph : Graph} {entry : String}
    (hentry : graph.contains entry = true) :
    ∃ module modules, graph.modules = module :: modules := by
  refine List.exists_cons_of_ne_nil fun hnil => ?_
  rw [Graph.contains, Graph.ids, hnil] at hentry
  exact absurd hentry (by simp)

/-- A bundle tells what it is made from: the entry, whether cycles are strict, and the graph with
    its modules in order. So do all bundles of closed graphs in whose codes there is nothing that
    could be taken for the end of a code, whatever else there is in codes, identifiers and
    specifiers. -/
theorem generate_inj {graph graph' : Graph} {entry entry' : String} {strict strict' : Bool}
    (hclosed : graph.isClosed = true) (hclosed' : graph'.isClosed = true)
    (hentry : graph.contains entry = true) (hentry' : graph'.contains entry' = true)
    (hcodes : ∀ module ∈ graph.modules, ¬codeEnd.toList <:+: module.code.toList)
    (hcodes' : ∀ module ∈ graph'.modules, ¬codeEnd.toList <:+: module.code.toList)
    (h : generate graph entry strict = generate graph' entry' strict') :
    entry = entry' ∧ strict = strict' ∧ graph = graph' := by
  obtain ⟨module, modules, hmodules⟩ := exists_modules_eq_cons hentry
  obtain ⟨module', modules', hmodules'⟩ := exists_modules_eq_cons hentry'
  rw [generate_eq_ok hclosed hentry, generate_eq_ok hclosed' hentry', Except.ok.injEq,
    ← String.toList_inj, render_append hmodules, render_append hmodules'] at h
  rw [hmodules, List.forall_mem_cons] at hcodes
  rw [hmodules', List.forall_mem_cons] at hcodes'
  obtain ⟨hstrict, hbody⟩ := cyclesLine_append_inj (List.append_cancel_left h)
  obtain ⟨hfirst, hothers⟩ := selfDelimiting_property module module' hcodes.1 hcodes'.1 _ _
    (List.append_cancel_left (List.append_cancel_left hbody))
  obtain ⟨hmore, hend⟩ := selfDelimiting_property.flatMap_inj moduleDivider_ne_modulesEnd hcodes.2
    hcodes'.2 hothers
  refine ⟨(Text.quote_append_inj hend).1, hstrict, ?_⟩
  have hall : graph.modules = graph'.modules := by rw [hmodules, hmodules', hfirst, hmore]
  obtain ⟨modules, _⟩ := graph
  obtain ⟨modules', _⟩ := graph'
  obtain rfl : modules = modules' := hall
  rfl

/-- A module whose texts are full of what frames modules. -/
def framedModule : Module where
  id := "/a\",\n\x7d, \".js"
  code := "var f = \x7b g: \x7b\n\x7d,\ndependencies:\x7b\x7d \x7d;\n\x7d,\n"
  dependencies := .ofList [("./\":\n", "/b\\.js"), ("\u2028,", "/a\",\n\x7d, \".js")]

/-- A module that the other one requires. -/
def plainModule : Module where
  id := "/b\\.js"
  code := ""
  dependencies := .empty

/-- The two modules in a list. -/
def listedGraph : Graph :=
  ⟨[framedModule, plainModule], by decide +kernel⟩

/-- The two modules, as they are found one after the other. -/
def foundGraph : Graph :=
  ((Graph.empty.insert framedModule).2.insert plainModule).2

theorem generate_framed_inj :
    foundGraph.isClosed = true ∧ foundGraph.contains plainModule.id = true ∧
      (∀ module ∈ foundGraph.modules, ¬codeEnd.toList <:+: module.code.toList) ∧
      generate foundGraph plainModule.id true = generate listedGraph "/b\\.js" true ∧
      foundGraph = listedGraph := by
  have hclosed : foundGraph.isClosed = true := by decide +kernel
  have hentry : foundGraph.contains plainModule.id = true := by decide +kernel
  have hcodes : ∀ module ∈ foundGraph.modules, ¬codeEnd.toList <:+: module.code.toList := by
    decide +kernel
  have hsame : generate foundGraph plainModule.id true = generate listedGraph "/b\\.js" true := rfl
  exact ⟨hclosed, hentry, hcodes, hsame, (generate_inj hclosed (by decide +kernel) hentry
    (by decide +kernel) hcodes (by decide +kernel) hsame).2.2⟩

end Bundle

end Bundler

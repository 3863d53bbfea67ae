import Bundler.Proofs.Build
import Bundler.Proofs.Graph.Agreement

/-!
# Building again

A build that does not look at the file of its bundle does not depend on it. So when it has
succeeded and is made again, it sees the files that it saw, makes the same bundle, and writes what
is written already.

* `Plan.agrees_of_assembledLooks`: stores that answer alike for a bundle do so for its graph;
* `Memory.agrees_put`: a file's new text does not matter to who does not look at it;
* `Memory.put_eq_self`: a text that a file has already changes nothing;
* `Plan.build_eq_ok`: when a build succeeds in memory, and with what;
* `Plan.build_again`: the second build.
-/

namespace Bundler

/-- What a search looks at is looked at for the bundle. -/
theorem Plan.agrees_of_assembledLooks {plan : Plan} {found : Except Error Graph} {v v' : View}
    {looks : List Look} (h : ∀ look ∈ plan.assembledLooks found looks, v.Agrees v' look) :
    ∀ look ∈ looks, v.Agrees v' look :=
  (List.forall_mem_append.1 (List.forall_mem_append.1 h).1).2

namespace Memory

theorem hasFile_eq (memory : Memory) (path : String) :
    memory.hasFile path = (memory.text? path).isSome := by
  unfold hasFile text?
  induction memory.files with
  | nil => rfl
  | cons file files ih =>
    rw [lookup_cons_eq, List.map_cons, List.contains_cons, ih]
    by_cases h : path = file.1 <;> simp [h]

/-- A file's new text changes nothing but the files. -/
theorem put_eq (memory : Memory) (path text : String) :
    memory.put path text = { memory with files := (memory.put path text).files } := by
  unfold put
  split
  · rfl
  · rfl

/-- Files in memory answer a look as they did before a file got a new text that the look is not
    about. -/
theorem agrees_put {memory : Memory} {path : String} (text : String) {look : Look}
    (h : look ≠ .call .isFile path ∧ look ≠ .call .read path) :
    (View.of memory).Agrees (View.of (memory.put path text)) look := by
  cases look with
  | tell => trivial
  | call access other =>
    cases access with
    | isFile =>
      have hother : other ≠ path := fun heq => h.1 (heq ▸ rfl)
      show (memory.put path text).hasFile other = memory.hasFile other
      rw [hasFile_eq, hasFile_eq, text?_put, if_neg hother]
    | read =>
      have hother : other ≠ path := fun heq => h.2 (heq ▸ rfl)
      show (memory.put path text).readResult other = memory.readResult other
      have hrefused : (memory.put path text).refusedReads = memory.refusedReads := by rw [put_eq]
      unfold readResult
      rw [hrefused, text?_put, if_neg hother]
    | write => trivial
    | makeDirectory => trivial

/-- Every file of a path has a text, and there is one. -/
def Holds (memory : Memory) (path text : String) : Prop :=
  memory.hasFile path = true ∧ ∀ file ∈ memory.files, file.1 = path → file = (path, text)

theorem holds_put (memory : Memory) (path text : String) :
    (memory.put path text).Holds path text := by
  refine ⟨by rw [hasFile_eq, text?_put, if_pos rfl]; rfl, ?_⟩
  unfold put
  split
  next =>
    intro file hfile hpath
    obtain ⟨old, -, rfl⟩ := List.mem_map.1 hfile
    split
    · rfl
    next h => exact absurd (by rwa [if_neg h] at hpath) h
  next h =>
    intro file hfile hpath
    rcases List.mem_append.1 hfile with hfile | hfile
    · exact absurd (List.contains_iff_mem.2 (List.mem_map.2 ⟨file, hfile, hpath⟩)) h
    · exact List.mem_singleton.1 hfile

/-- A text that a file has already changes nothing. -/
theorem put_eq_self {memory : Memory} {path text : String} (h : memory.Holds path text) :
    memory.put path text = memory := by
  unfold put
  rw [if_pos h.1]
  have hsame : (memory.files.map fun file => if file.1 = path then (path, text) else file) =
      memory.files := by
    refine (List.map_congr_left fun file hfile => ?_).trans (List.map_id _)
    split
    next hpath => exact (h.2 file hfile hpath).symm
    · rfl
  rw [hsame]

end Memory

namespace Plan

variable {plan : Plan} {transform : Transformer} {format : Formatter} {memory after : Memory}
  {receipt : Receipt}

/-- A build in memory succeeds if there is a bundle that can be laid out, and neither its directory
    nor its file is refused. -/
theorem build_eq_ok :
    (plan.build transform.told format : Run Memory (Except Error Receipt)) memory =
        some (.ok receipt, after) ↔
      ∃ found looks bundled text,
        (View.of memory).Discovers transform ⟨plan.extensions⟩ plan.entry found looks ∧
        plan.assembled found = .ok bundled ∧
        plan.output.finish format bundled.text = .ok text ∧
        memory.refusedDirectories.contains plan.output.directory = false ∧
        memory.refusedWrites.contains plan.output.file = false ∧
        receipt = bundled.receipt { path := plan.output.file, size := Text.byteLength text.toList } ∧
        after = (plan.output.noted ((plan.assembledLooks found looks).foldl Steady.after
          memory)).put plan.output.file text := by
  have htell (memory : Memory) (event : Event) : Steady.after memory (.tell event) = memory := rfl
  have hended {found : Except Error Graph} {looks : List Look}
      (h : (View.of memory).Discovers transform ⟨plan.extensions⟩ plan.entry found looks) :
      (plan.build transform.told format : Run Memory (Except Error Receipt)) memory =
          some (.ok receipt, after) ↔
        ∃ bundled text, plan.assembled found = .ok bundled ∧
          plan.output.finish format bundled.text = .ok text ∧
          memory.refusedDirectories.contains plan.output.directory = false ∧
          memory.refusedWrites.contains plan.output.file = false ∧
          receipt = bundled.receipt
            { path := plan.output.file, size := Text.byteLength text.toList } ∧
          after = (plan.output.noted ((plan.assembledLooks found looks).foldl Steady.after
            memory)).put plan.output.file text := by
    rw [plan.build_of_discovers format h]
    simp only [htell]
    cases plan.assembled found with
    | error error => simp
    | ok bundled =>
      simp only [Output.emit_memory, Memory.foldl_after, Except.ok.injEq, exists_and_left,
        exists_eq_left']
      cases plan.output.finish format bundled.text with
      | error error => simp
      | ok text =>
        cases memory.refusedDirectories.contains plan.output.directory with
        | true => simp
        | false =>
          cases memory.refusedWrites.contains plan.output.file with
          | true => simp
          | false => simp [eq_comm]
  constructor
  case mp =>
    intro hbuild
    obtain ⟨found, looks, h⟩ :=
      memory.hasFiles.exists_discovers transform ⟨plan.extensions⟩ plan.entry
    exact ⟨found, looks, ((hended h).1 hbuild).imp fun bundled => Exists.imp fun text => And.intro h⟩
  case mpr =>
    rintro ⟨found, looks, bundled, text, h, hrest⟩
    exact (hended h).2 ⟨bundled, text, hrest⟩

/-- A build that starts with files in memory succeeds, and asks neither whether its own output is a
    file nor for its text. Then a second build of the same plan gives the same receipt, makes the
    same calls in the same order, and leaves all else as the first build left it. -/
theorem build_again (plan : Plan) (transform : Transformer) (format : Formatter)
    (memory after : Memory) (receipt : Receipt) (calls : List (Access × String))
    (hbuild : (plan.build transform.told format : Run Memory (Except Error Receipt)) memory =
      some (.ok receipt, after))
    (hcalls : after.journal = calls.reverse ++ memory.journal)
    (hunseen : (.isFile, receipt.output.path) ∉ calls ∧ (.read, receipt.output.path) ∉ calls) :
    (plan.build transform.told format : Run Memory (Except Error Receipt)) after =
      some (.ok receipt, { after with journal := calls.reverse ++ after.journal }) := by
  obtain ⟨found, searchLooks, bundled, text, hdiscovers, hassembled, htext, hdirectory, hfile, rfl,
    hafter⟩ := build_eq_ok.1 hbuild
  generalize hlooks : plan.assembledLooks found searchLooks = looks at hafter
  rw [Memory.foldl_after] at hafter
  have hjournal : calls.reverse = (.write, plan.output.file) ::
      (.makeDirectory, plan.output.directory) :: (Look.calls looks).reverse := by
    have hwritten : after.journal = (.write, plan.output.file) ::
        (.makeDirectory, plan.output.directory) ::
          ((Look.calls looks).reverse ++ memory.journal) := by
      rw [hafter, Memory.journal_put]
      rfl
    rw [hcalls] at hwritten
    exact List.append_cancel_right hwritten
  -- No look is about the file that was written, so the second build sees what the first one saw.
  have hagrees : ∀ look ∈ looks, (View.of memory).Agrees (View.of after) look := by
    intro look hlook
    have hmem : ∀ access path, look = .call access path → (access, path) ∈ calls := by
      rintro access path rfl
      rw [← List.mem_reverse, hjournal]
      refine .tail _ (.tail _ (List.mem_reverse.2 (List.mem_filterMap.2 ⟨_, hlook, rfl⟩)))
    rw [hafter]
    exact Memory.agrees_put text
      ⟨fun heq => hunseen.1 (hmem _ _ heq), fun heq => hunseen.2 (hmem _ _ heq)⟩
  have hsame := hdiscovers.congr (agrees_of_assembledLooks (hlooks ▸ hagrees))
  -- It writes what is written.
  have hholds : after.Holds plan.output.file text := hafter ▸ Memory.holds_put _ _ _
  refine build_eq_ok.2 ⟨found, searchLooks, bundled, text, hsame, hassembled, htext, ?_, ?_, rfl, ?_⟩
  · rw [hafter, Memory.put_eq]
    exact hdirectory
  · rw [hafter, Memory.put_eq]
    exact hfile
  · have hagain : (plan.output.noted { after with
        journal := (Look.calls looks).reverse ++ after.journal }).Holds plan.output.file text := hholds
    rw [hlooks, Memory.foldl_after, Memory.put_eq_self hagain, hjournal]
    rfl

end Plan

theorem build_crossing_again :
    let format : Formatter := fun text => .ok (text ++ "\n")
    let build : Run Memory (Except Error Receipt) := (Plan.ofEntry "a").build lettered.told format
    ∃ (receipt : Receipt) (after : Memory) (calls : List (Access × String)),
      build crossing = some (.ok receipt, after) ∧ receipt.modules = 3 ∧
      receipt.output.path = "dist/bundle.js" ∧ after.journal = calls.reverse ++ crossing.journal ∧
      ((.isFile, receipt.output.path) ∉ calls ∧ (.read, receipt.output.path) ∉ calls) ∧
      build after = some (.ok receipt, { after with journal := calls.reverse ++ after.journal }) := by
  intro format build
  have within : ((View.of crossing).discoverWithin lettered ⟨(Plan.ofEntry "a").extensions⟩ 3
      "a").bind (fun ended => ((Plan.ofEntry "a").assembled ended.1).toOption.map fun bundled =>
        (bundled.graph.size, decide (∀ call ∈ Look.calls ((Plan.ofEntry "a").assembledLooks ended.1
          ended.2), call.2 ≠ "dist/bundle.js"))) = some (3, true) := by
    decide +kernel
  obtain ⟨⟨found, looks⟩, hwithin, hfound⟩ := Option.bind_eq_some_iff.1 within
  obtain ⟨bundled, hbundled, hshown⟩ := Option.map_eq_some_iff.1 hfound
  obtain ⟨hmodules, hunseen⟩ := Prod.mk.inj hshown
  have hunseen := of_decide_eq_true hunseen
  cases hassembled : (Plan.ofEntry "a").assembled found with
  | error error =>
    rw [hassembled] at hbundled
    cases hbundled
  | ok other =>
    rw [hassembled] at hbundled
    obtain rfl : other = bundled := Option.some.inj hbundled
    obtain ⟨receipt, after, hreceipt, hafter, hbuild⟩ : ∃ receipt after,
        receipt = other.receipt
          { path := "dist/bundle.js", size := Text.byteLength (other.text ++ "\n").toList } ∧
        after = ((Plan.ofEntry "a").output.noted (((Plan.ofEntry "a").assembledLooks found
          looks).foldl Steady.after crossing)).put "dist/bundle.js" (other.text ++ "\n") ∧
        build crossing = some (.ok receipt, after) :=
      ⟨_, _, rfl, rfl, Plan.build_eq_ok.2 ⟨found, looks, other, other.text ++ "\n",
        View.discovers_of_discoverWithin hwithin, hassembled, rfl, rfl, rfl, rfl, rfl⟩⟩
    have hjournal : after.journal = after.journal.reverse.reverse ++ crossing.journal := by
      rw [List.reverse_reverse]
      exact (List.append_nil _).symm
    -- The last two calls make the directory and write the file, and the others were asked for.
    have hpath : ∀ access, access = .isFile ∨ access = .read →
        (access, receipt.output.path) ∉ after.journal.reverse := by
      intro access haccess hmem
      rw [List.mem_reverse, hafter, Memory.journal_put, Memory.foldl_after, hreceipt] at hmem
      rcases List.mem_cons.1 hmem with heq | hmem
      · rcases haccess with rfl | rfl <;> cases heq
      rcases List.mem_cons.1 hmem with heq | hmem
      · rcases haccess with rfl | rfl <;> cases heq
      · rw [show crossing.journal = [] from rfl, List.append_nil, List.mem_reverse] at hmem
        exact hunseen _ hmem rfl
    exact ⟨receipt, after, after.journal.reverse, hbuild, hreceipt ▸ hmodules, hreceipt ▸ rfl,
      hjournal, ⟨hpath _ (.inl rfl), hpath _ (.inr rfl)⟩,
      Plan.build_again _ lettered format crossing after receipt _ hbuild hjournal
        ⟨hpath _ (.inl rfl), hpath _ (.inr rfl)⟩⟩

end Bundler

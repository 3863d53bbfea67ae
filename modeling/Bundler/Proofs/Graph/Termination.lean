import Bundler.Proofs.Graph.Reachability
import Mathlib.Data.Finset.Card
import Mathlib.Data.Set.Finite.List
import Mathlib.Data.FinEnum

/-!
# A search among finitely many files ends

A search visits nothing but files, and none of them twice. So where finitely many paths lead to
files it has no endless steps, and it ends.

* `View.HasFiles`: stores in which only some paths lead to files;
* `Memory.hasFiles`, `Session.exists_hasFiles`: the stores at hand;
* `Search.Sound.acc`: there are no endless steps;
* `View.HasFiles.exists_searches`, `View.HasFiles.exists_discovers`: a search ends.
-/

namespace Bundler

/-- No other paths than `files` lead to files. -/
def View.HasFiles (v : View) (files : Finset String) : Prop :=
  ∀ path, v.isFile path = true → path ∈ files

/-! ### Stores -/

theorem Memory.hasFiles (memory : Memory) :
    (View.of memory).HasFiles (memory.files.map Prod.fst).toFinset := by
  intro path hpath
  exact List.mem_toFinset.2 (List.contains_iff_mem.1 hpath)

namespace Tree

/-- A path that leads to a file is not too long. -/
theorem utf8ByteSize_le {tree : Tree} {process : Process} {path : String}
    (h : tree.isFile process path = true) : path.utf8ByteSize ≤ maxPath := by
  unfold isFile find? place? at h
  by_contra hlong
  have : segments? path = .error .nameTooLong ∨ segments? path = .error .notFound ∨
      segments? path = .error .nulInName := by
    unfold segments?
    grind
  rcases this with hs | hs | hs <;> simp [hs, bind, Except.bind] at h

/-- There are finitely many paths that are not too long. -/
theorem finite_paths : {path : String | path.utf8ByteSize ≤ maxPath}.Finite := by
  -- A path is known by its bytes, and there are finitely many rows of so many bytes.
  have hbytes : Function.Injective fun path : String => path.toByteArray.data.toList := by
    intro path other h
    exact String.toByteArray_inj.1 (ByteArray.ext (Array.ext' h))
  refine ((List.finite_length_le UInt8 maxPath).preimage hbytes.injOn).subset ?_
  intro path hpath
  exact hpath

end Tree

theorem Session.exists_hasFiles (session : Session) :
    ∃ files, (View.of session).HasFiles files :=
  ⟨Tree.finite_paths.toFinset, fun _ hpath =>
    Tree.finite_paths.mem_toFinset.2 (Tree.utf8ByteSize_le hpath)⟩

/-! ### Searches -/

section

variable {v : View} {transform : Transformer} {locator : Locator} {entry : String}
  {files : Finset String} {now : Search}

theorem View.isFile_of_locate {id path : String} (h : v.locate locator id = some path) :
    v.isFile path = true :=
  List.find?_some h

/-- What a module requires is a file. -/
theorem View.Requires.isFile {id target : String} (h : v.Requires transform locator id target) :
    v.isFile target = true := by
  obtain ⟨_, _, _, _, _, _, _, _, hfile⟩ := h
  exact isFile_of_locate hfile

namespace Search.Sound

/-- What a file's own search has seen are files. -/
theorem isFile (hs : Search.Sound v transform locator entry now) (hf : v.isFile entry = true)
    (id : String) (hi : id ∈ now.seen) : v.isFile id = true := by
  cases hs.reached id hi with
  | refl => exact hf
  | tail _ hr => exact hr.isFile

/-- There are no more modules that were visited than files. -/
theorem size_le (hs : Search.Sound v transform locator entry now) (hf : v.isFile entry = true)
    (hfiles : v.HasFiles files) : now.graph.size ≤ files.card := by
  have hsub : now.graph.ids.toFinset ⊆ files := by
    intro id hid
    refine hfiles id (hs.isFile hf id ?_)
    rw [hs.seen_eq]
    exact List.mem_append_left _ (List.mem_toFinset.1 hid)
  have hnodup : now.graph.ids.Nodup := now.graph.distinct
  have hle := Finset.card_le_card hsub
  rwa [List.toFinset_card_of_nodup hnodup, Graph.ids, List.length_map] at hle

/-- A search that starts from a file has no endless steps. -/
theorem acc (hs : Search.Sound v transform locator entry now) (hf : v.isFile entry = true)
    (hfiles : v.HasFiles files) :
    Acc (fun next now => Search.Step v transform locator now next) now := by
  -- With each step there is one file less that was not visited.
  induction hleft : files.card - now.graph.size generalizing now with
  | zero =>
    constructor
    intro next hstep
    have := (hs.step hstep).size_le hf hfiles
    have := hs.size_step hstep
    omega
  | succ left ih =>
    constructor
    intro next hstep
    refine ih (hs.step hstep) ?_
    have := (hs.step hstep).size_le hf hfiles
    have := hs.size_step hstep
    omega

end Search.Sound

namespace View.HasFiles

/-- A search that starts from a file ends. -/
theorem exists_searches (hfiles : v.HasFiles files) (hf : v.isFile entry = true)
    (hs : Search.Sound v transform locator entry now) :
    ∃ result looks, v.Searches transform locator now result looks := by
  induction hs.acc hf hfiles with
  | intro now _ ih =>
    cases hq : now.queue with
    | nil => exact ⟨_, _, .done hq⟩
    | cons id queue =>
      cases hv : v.visit transform locator id with
      | error error => exact ⟨_, _, .fail hq hv⟩
      | ok found =>
        have hstep : Search.Step v transform locator now _ := .visit hq hv
        obtain ⟨result, looks, hsearches⟩ := ih _ hstep (hs.step hstep)
        exact ⟨result, _, .visit hq hv hsearches⟩

/-- Looking for the graph of an entry ends. -/
theorem exists_discovers (hfiles : v.HasFiles files) (transform : Transformer) (locator : Locator)
    (path : String) : ∃ result looks, v.Discovers transform locator path result looks := by
  cases hentry : v.locate locator (Path.canonical path) with
  | none => exact ⟨_, _, .noEntry hentry⟩
  | some entry =>
    have hstart : Search.Sound v transform locator entry (Search.start entry) := .start
    obtain ⟨result, looks, hsearches⟩ := hfiles.exists_searches (isFile_of_locate hentry) hstart
    exact ⟨result, _, .found hentry hsearches⟩

end View.HasFiles

end

end Bundler

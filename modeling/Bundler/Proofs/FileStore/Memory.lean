import Bundler.Proofs.FileStore.Steady

/-!
# Files in memory under looks and changes

Looking at files in memory adds to their journal and changes nothing else; giving a file a text
changes no other file.

* `Memory.foldl_after`: what looking leaves;
* `Memory.text?_put`: what a file's new text leaves of the others.
-/

namespace Bundler

/-- The calls of a store, in order. -/
def Look.calls (looks : List Look) : List (Access × String) :=
  looks.filterMap fun look =>
    match look with
    | .call access path => some (access, path)
    | .tell _ => none

/-- A look that asks for nothing but whether a path leads to a file, or for its text. -/
def Look.Asks : Look → Prop
  | .call access _ => access = .isFile ∨ access = .read
  | .tell _ => True

theorem Look.calls_asks {looks : List Look} (h : ∀ look ∈ looks, look.Asks) :
    ∀ call ∈ Look.calls looks, call.1 = .isFile ∨ call.1 = .read := by
  intro call hcall
  obtain ⟨look, hlook, heq⟩ := List.mem_filterMap.1 hcall
  cases look with
  | call access path =>
    cases heq
    exact h _ hlook
  | tell => cases heq

namespace Memory

/-- Looking leaves its calls in the journal. -/
theorem foldl_after (memory : Memory) (looks : List Look) :
    looks.foldl Steady.after memory =
      { memory with journal := (Look.calls looks).reverse ++ memory.journal } := by
  induction looks generalizing memory with
  | nil => rfl
  | cons look looks ih =>
    rw [List.foldl_cons, ih]
    cases look with
    | call access path =>
      simp [Look.calls, Steady.after, note]
    | tell => rfl

theorem lookup_cons_eq (file : String × String) (files : List (String × String)) (path : String) :
    (file :: files).lookup path = if path = file.1 then some file.2 else files.lookup path := by
  obtain ⟨name, text⟩ := file
  rw [List.lookup_cons]
  by_cases h : path = name
  · simp [h]
  · rw [beq_false_of_ne h, if_neg h]

/-- A file that is there with a new text. -/
theorem lookup_replace_self {files : List (String × String)} {path : String}
    (h : path ∈ files.map Prod.fst) (text : String) :
    (files.map fun file => if file.1 = path then (path, text) else file).lookup path =
      some text := by
  induction files with
  | nil => cases h
  | cons file files ih =>
    rw [List.map_cons, lookup_cons_eq]
    by_cases hfile : file.1 = path
    · rw [if_pos hfile, if_pos rfl]
    · rw [if_neg hfile, if_neg (Ne.symm hfile)]
      rcases List.mem_cons.1 h with heq | h
      · exact absurd heq.symm hfile
      · exact ih h

/-- Any other file keeps its text. -/
theorem lookup_replace_of_ne (files : List (String × String)) {path other : String}
    (h : other ≠ path) (text : String) :
    (files.map fun file => if file.1 = path then (path, text) else file).lookup other =
      files.lookup other := by
  induction files with
  | nil => rfl
  | cons file files ih =>
    rw [List.map_cons, lookup_cons_eq, lookup_cons_eq, ih]
    by_cases hfile : file.1 = path
    · rw [if_pos hfile, if_neg h, if_neg (hfile ▸ h)]
    · rw [if_neg hfile]

theorem journal_put (memory : Memory) (path text : String) :
    (memory.put path text).journal = memory.journal := by
  unfold put
  split
  · rfl
  · rfl

/-- The text of the file that was changed is the new one, and that of any other what it was. -/
theorem text?_put (memory : Memory) (path text other : String) :
    (memory.put path text).text? other =
      if other = path then some text else memory.text? other := by
  unfold put text? hasFile
  by_cases hpath : path ∈ memory.files.map Prod.fst
  · rw [if_pos (List.contains_iff_mem.2 hpath)]
    split
    next h => exact h ▸ lookup_replace_self hpath text
    next h => exact lookup_replace_of_ne _ h text
  · rw [if_neg (by rwa [List.contains_iff_mem])]
    dsimp only
    rw [List.lookup_append, lookup_cons_eq, List.lookup_nil]
    split
    next h =>
      have : memory.files.lookup other = none := by
        rw [List.lookup_eq_none_iff]
        intro file hfile
        rw [bne_iff_ne]
        rintro rfl
        exact hpath (List.mem_map.2 ⟨file, hfile, h⟩)
      rw [this, Option.none_or]
    next => rw [Option.or_none]

end Memory

end Bundler

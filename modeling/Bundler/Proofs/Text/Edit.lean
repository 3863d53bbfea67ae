import Bundler.Proofs.Text.Offset

/-!
# Edits that take effect

An edit that starts in what another one has replaced changes nothing. What an edited text is
like is told by the others, which stand one after another.

* `Edit.effective`: the edits that take effect, in the order of the text;
* `Edit.Makes`: a text in which edits are made one after another, and all else is kept;
* `Edit.apply_makes`: a text after edits is the text in which those that take effect are made.
-/

namespace Bundler.Edit

/-- The edits, of some in order, that take effect from an offset on. -/
def effectiveFrom (offset : Nat) : List Edit → List Edit
  | [] => []
  | edit :: more =>
    if edit.span.start < offset then effectiveFrom offset more
    else edit :: effectiveFrom edit.span.stop more

/-- The edits that take effect, in the order of the text. -/
def effective (edits : List Edit) : List Edit :=
  effectiveFrom 0 (edits.mergeSort comesFirst)

/-! ### The order of edits -/

theorem comesFirst_iff {one other : Edit} : one.comesFirst other = true ↔
    one.span.start < other.span.start ∨
      one.span.start = other.span.start ∧ one.span.stop ≤ other.span.stop := by
  simp [comesFirst]

theorem pairwise_mergeSort (edits : List Edit) :
    (edits.mergeSort comesFirst).Pairwise fun one other => one.comesFirst other = true := by
  apply List.pairwise_mergeSort
  · intro one other third h h'
    rw [comesFirst_iff] at h h' ⊢
    omega
  · intro one other
    rw [Bool.or_eq_true, comesFirst_iff, comesFirst_iff]
    omega

/-! ### What an edited text is like -/

/-- A text from an offset on, and what edits make of it: the edits are made one after another, each
    in the place of its stretch, and what stands between the stretches is kept. -/
inductive Makes : Nat → List Char → List Edit → List Char → Prop
  /-- What stands behind all stretches is kept. -/
  | rest (offset : Nat) (text : List Char) : Makes offset text [] text
  /-- What stands before a stretch is kept, and the stretch is replaced. -/
  | edit {offset : Nat} {kept old rest made : List Char} {edit : Edit} {more : List Edit}
    (hstart : offset + Text.byteLength kept = edit.span.start)
    (hstop : edit.span.start + Text.byteLength old = edit.span.stop)
    (hmore : Makes edit.span.stop rest more made) :
    Makes offset (kept ++ old ++ rest) (edit :: more) (kept ++ edit.text.toList ++ made)

/-- Edits are made where no stretch starts or ends within a character. -/
theorem applyFrom_makes {text rest : List Char} {offset : Nat} {edits : List Edit}
    (hrest : Text.Goes 0 text offset rest)
    (hmarks : ∀ edit ∈ edits, Text.Mark text edit.span.start ∧ Text.Mark text edit.span.stop)
    (hfilled : ∀ edit ∈ edits, edit.span.start ≤ edit.span.stop) :
    Makes offset rest (effectiveFrom offset edits) (applyFrom offset rest edits) := by
  fun_induction effectiveFrom offset edits generalizing rest with
  | case1 => exact .rest _ _
  | case2 offset edit more hlt ih =>
    rw [applyFrom, if_pos hlt]
    exact ih hrest (fun edit hedit => hmarks edit (.tail _ hedit))
      fun edit hedit => hfilled edit (.tail _ hedit)
  | case3 offset edit more hle ih =>
    obtain ⟨⟨next, hnext⟩, ⟨last, hlast⟩⟩ := hmarks edit (.head _)
    obtain ⟨kept, rfl, hstart⟩ := hrest.between hnext (Nat.not_lt.1 hle)
    obtain ⟨old, rfl, hstop⟩ := hnext.between hlast (hfilled edit (.head _))
    have hmore := ih hlast (fun edit hedit => hmarks edit (.tail _ hedit))
      fun edit hedit => hfilled edit (.tail _ hedit)
    rw [applyFrom, if_neg hle, ← hstart, Nat.add_sub_cancel_left, Text.splitBytes_byteLength]
    dsimp only
    rw [hstart, ← hstop, Nat.add_sub_cancel_left, Text.splitBytes_byteLength, hstop,
      ← List.append_assoc]
    exact .edit hstart hstop hmore

/-- A text after edits is the text in which those that take effect are made. -/
theorem apply_makes {text : List Char} {edits : List Edit}
    (hmarks : ∀ edit ∈ edits, Text.Mark text edit.span.start ∧ Text.Mark text edit.span.stop)
    (hfilled : ∀ edit ∈ edits, edit.span.start ≤ edit.span.stop) :
    Makes 0 text (effective edits) (apply text edits) :=
  applyFrom_makes (.refl 0 text) (fun edit hedit => hmarks edit (List.mem_mergeSort.1 hedit))
    fun edit hedit => hfilled edit (List.mem_mergeSort.1 hedit)

end Bundler.Edit

import Bundler.Proofs.Path.Resolve

/-!
# The form of a canonical spelling

A canonical spelling is `.`, or `/`, or a row of segments in which none names nothing and a `..`
stands only at the front of a relative path. The converse holds as well: a text of this form is the
canonical spelling of itself. Two paths have one canonical spelling if they mean the same, and what a
path means can be told without a stack: a `..` takes back the nearest name before it that no other
one takes back (`settle`), and at the root those that find no name are lost.

* `IsNormal`: the texts of that form;
* `canonical_eq_self_iff_isNormal`: they are the canonical spellings;
* `Route.foldl_follow_eq`: a stack comes to what the segments settle to;
* `canonical_normalForm`: the canonical spelling of every path.
-/

namespace Bundler.Path

/-! ### Normal texts -/

/-- Segments of which each says something: none is empty, and none is `.`. -/
def Active (segments : List (List Char)) : Prop :=
  ∀ segment ∈ segments, segment ≠ [] ∧ segment ≠ ['.']

/-- The texts that have the form of a canonical spelling. -/
inductive IsNormal : List Char → Prop where
  /-- The place where a relative path starts. -/
  | start : IsNormal ['.']
  /-- The root. -/
  | root : IsNormal ['/']
  /-- A relative path, with `..` at its front only. -/
  | relative {text : List Char} (hactive : Active (segments text))
    (hfront : ['.', '.'] ∉ (segments text).dropWhile (· == ['.', '.'])) : IsNormal text
  /-- A path from the root, without `..`. -/
  | rooted {rest : List Char} (hactive : Active (segments rest))
    (hdown : ['.', '.'] ∉ segments rest) : IsNormal ('/' :: rest)

theorem active_iff {segments : List (List Char)} :
    Active segments ↔ ∀ segment ∈ segments, isIdle segment = false := by
  simp [Active, isIdle]

/-- The segments of a text, joined again, are the text. -/
theorem joinSegments_segments (text : List Char) : joinSegments (segments text) = text := by
  induction text with
  | nil => rfl
  | cons c rest ih =>
    have hne : segments rest ≠ [] := pieces_ne_nil rest
    obtain ⟨first, more, hsegments⟩ := List.exists_cons_of_ne_nil hne
    rw [hsegments] at ih
    rw [segments] at hsegments
    by_cases hc : (c == '/') = true
    · obtain rfl := eq_of_beq hc
      rw [segments, pieces, if_pos hc, hsegments, joinSegments_cons_cons, ih, List.nil_append]
    · rw [segments, pieces, if_neg hc, hsegments]
      cases more with
      | nil =>
        rw [joinSegments_singleton] at ih
        rw [joinSegments_singleton, ih]
      | cons second more =>
        rw [joinSegments_cons_cons] at ih
        rw [joinSegments_cons_cons, List.cons_append, ih]

/-- A list starts with as many copies of an element as it has before any other one. -/
theorem exists_replicate_append {α : Type} [BEq α] [LawfulBEq α] (l : List α) (a : α) :
    ∃ count, l = List.replicate count a ++ l.dropWhile (· == a) := by
  have hcopies : ∀ b ∈ l.takeWhile (· == a), b = a := by
    intro b hb
    have hbeq := List.mem_takeWhile_imp hb
    exact eq_of_beq hbeq
  refine ⟨(l.takeWhile (· == a)).length, ?_⟩
  rw [← List.eq_replicate_of_mem hcopies, List.takeWhile_append_dropWhile]

/-- Where `/` is the only divider, there is none in a segment. -/
theorem undivided_of_mem_segments {text segment : List Char} (hslash : '\\' ∉ text)
    (h : segment ∈ segments text) : ∀ c ∈ segment, Route.isDivider c = false := by
  have hpieces := segments_slashed (String.ofList text)
  rw [slashed_eq_self (by rwa [String.toList_ofList]), String.toList_ofList] at hpieces
  exact not_separator_of_mem_pieces (hpieces ▸ h)

namespace Route

theorem Proper.active_spelling {route : Route} (h : route.Proper) : Active route.spelling := by
  refine active_iff.2 (List.forall_mem_append.2 ⟨fun segment hsegment => ?_, ?_⟩)
  · rw [List.eq_of_mem_replicate hsegment]
    rfl
  · exact fun name hname => (h.names name (List.mem_reverse.1 hname)).active

/-- The spelling of a proper route has the form. -/
theorem Proper.isNormal_render {route : Route} (h : route.Proper) : IsNormal route.render := by
  have hparent : ['.', '.'] ∉ route.stack.reverse := fun hmem =>
    (h.names _ (List.mem_reverse.1 hmem)).ne_parent rfl
  have hsegments (hne : route.spelling ≠ []) :=
    segments_joinSegments hne h.spelling_undivided
  have hactive := h.active_spelling
  unfold render
  split
  next hrooted =>
    have hspelling : route.spelling = route.stack.reverse := by
      rw [spelling, h.climbs_eq hrooted, List.replicate_zero, List.nil_append]
    rcases eq_or_ne route.spelling [] with hnil | hne
    · -- Even the empty text has a segment, so the root is a case of its own.
      rw [hnil]
      exact .root
    · exact .rooted (by rwa [hsegments hne]) (by rwa [hsegments hne, hspelling])
  next =>
    split
    next => exact .start
    next hne =>
      have hne : route.spelling ≠ [] := by simpa using hne
      refine .relative (by rwa [hsegments hne]) ?_
      rw [hsegments hne, spelling,
        List.dropWhile_append_of_pos fun segment hsegment => by
          rw [List.eq_of_mem_replicate hsegment, beq_self_eq_true]]
      exact fun hmem => hparent ((List.dropWhile_suffix _).subset hmem)

/-- A text that has the form spells a proper route. -/
theorem exists_render_of_isNormal {text : List Char} (hslash : '\\' ∉ text) (h : IsNormal text) :
    ∃ route : Route, route.Proper ∧ route.render = text := by
  cases h with
  | start => exact ⟨⟨false, 0, []⟩, start_proper false, rfl⟩
  | root => exact ⟨⟨true, 0, []⟩, start_proper true, rfl⟩
  | @rooted rest hactive hdown =>
    have hslash : '\\' ∉ rest := fun hmem => hslash (.tail _ hmem)
    have hnames : ∀ name ∈ segments rest, IsName name := fun name hname =>
      ⟨active_iff.1 hactive name hname, fun heq => hdown (heq ▸ hname),
        undivided_of_mem_segments hslash hname⟩
    refine ⟨⟨true, 0, (segments rest).reverse⟩,
      ⟨fun name hname => hnames name (List.mem_reverse.1 hname), fun _ => rfl⟩, ?_⟩
    rw [render, if_pos rfl, spelling, List.replicate_zero, List.nil_append, List.reverse_reverse,
      joinSegments_segments]
  | relative hactive hfront =>
    -- The `..` at the front are climbs, and what comes behind them are names.
    obtain ⟨climbs, hsplit⟩ := exists_replicate_append (segments text) ['.', '.']
    generalize (segments text).dropWhile (· == ['.', '.']) = names at hfront hsplit
    have hnames : ∀ name ∈ names, IsName name := by
      intro name hname
      have hmem : name ∈ segments text := hsplit ▸ List.mem_append_right _ hname
      refine ⟨active_iff.1 hactive name hmem, ?_, undivided_of_mem_segments hslash hmem⟩
      rintro rfl
      exact hfront hname
    have hspelling : (⟨false, climbs, names.reverse⟩ : Route).spelling = segments text := by
      rw [spelling, List.reverse_reverse, hsplit]
    refine ⟨⟨false, climbs, names.reverse⟩,
      ⟨fun name hname => hnames name (List.mem_reverse.1 hname), (Bool.false_ne_true · |>.elim)⟩, ?_⟩
    have hne : (segments text).isEmpty = false :=
      List.isEmpty_eq_false_iff.2 (pieces_ne_nil text)
    rw [render, hspelling, hne, if_neg Bool.false_ne_true, if_neg Bool.false_ne_true,
      joinSegments_segments]

/-! ### Meanings without a stack -/

/-- What segments come to: how many `..` find no name before them, and the names that no `..`
    behind them takes back. -/
def settle : List (List Char) → Nat × List (List Char)
  | [] => (0, [])
  | segment :: more =>
    if isIdle segment then settle more
    else if segment = ['.', '.'] then ((settle more).1 + 1, (settle more).2)
    else
      -- The first `..` that has found no name so far takes this one back.
      match (settle more).1 with
      | 0 => (0, segment :: (settle more).2)
      | climbs + 1 => (climbs, (settle more).2)

/-- Who follows segments from a route takes back as many of its names as there are `..` that find
    none before them, climbs for the rest of these unless the route is rooted, and goes down the
    names that are left. -/
theorem foldl_follow_eq (route : Route) (segments : List (List Char)) :
    segments.foldl follow route =
      { rooted := route.rooted
        climbs := if route.rooted then route.climbs
          else route.climbs + ((settle segments).1 - route.stack.length)
        stack := (settle segments).2.reverse ++ route.stack.drop (settle segments).1 } := by
  induction segments generalizing route with
  | nil => simp [settle]
  | cons segment segments ih =>
    obtain ⟨rooted, climbs, stack⟩ := route
    rw [List.foldl_cons, ih]
    by_cases hidle : isIdle segment = true
    · rw [follow, if_pos hidle, settle, if_pos hidle]
    by_cases hparent : segment = ['.', '.']
    · rw [follow, if_neg hidle, if_pos hparent, settle, if_neg hidle, if_pos hparent]
      -- It takes back a name of the route, and where there is none it climbs, or is lost at the root.
      cases stack with
      | cons name names => simp
      | nil =>
        cases rooted with
        | true => simp
        | false => simp [Nat.add_assoc, Nat.add_comm]
    · rw [follow, if_neg hidle, if_neg hparent, settle, if_neg hidle, if_neg hparent]
      -- The name stays, or is the first one that is taken back.
      cases (settle segments).1 with
      | zero => simp
      | succ count => simp

/-- What a path means. -/
theorem ofPath_eq_settle (path : List Char) :
    ofPath path =
      { rooted := path.head?.any isDivider
        climbs := if path.head?.any isDivider then 0 else (settle (pieces isDivider path)).1
        stack := (settle (pieces isDivider path)).2.reverse } := by
  rw [ofPath, foldl_follow_eq]
  simp

end Route

/-! ### Canonical spellings -/

/-- The texts that have the form, with `/` as the only divider, are the canonical spellings. -/
theorem canonical_eq_self_iff_isNormal {path : String} :
    canonical path = path ↔ '\\' ∉ path.toList ∧ IsNormal path.toList := by
  rw [canonical_eq_self_iff]
  constructor
  · rintro ⟨route, hroute, hrender⟩
    exact hrender ▸ ⟨hroute.not_mem_render, hroute.isNormal_render⟩
  · rintro ⟨hslash, hnormal⟩
    exact Route.exists_render_of_isNormal hslash hnormal

/-- The canonical spelling of a path has `/` as its only divider and the form of a canonical
    spelling, as have just those paths that are their own. It is the same for paths that start both
    at the root or both not, climb as often, and go down the same names when they are followed
    segment by segment on a stack. What is left on the stack are the names that no `..` takes
    back, and the climbs are the `..` that find no name before them, of which there are none
    at the root. -/
theorem canonical_normalForm (path : String) :
    '\\' ∉ (canonical path).toList ∧ IsNormal (canonical path).toList ∧
      canonical (canonical path) = canonical path ∧
      (canonical path = path ↔ '\\' ∉ path.toList ∧ IsNormal path.toList) ∧
      (∀ other : String, canonical path = canonical other ↔
        (Route.ofPath path.toList).rooted = (Route.ofPath other.toList).rooted ∧
        (Route.ofPath path.toList).climbs = (Route.ofPath other.toList).climbs ∧
        (Route.ofPath path.toList).stack = (Route.ofPath other.toList).stack) ∧
      Route.ofPath path.toList =
        { rooted := path.toList.head?.any Route.isDivider
          climbs := if path.toList.head?.any Route.isDivider then 0
            else (Route.settle (pieces Route.isDivider path.toList)).1
          stack := (Route.settle (pieces Route.isDivider path.toList)).2.reverse } := by
  have hidem := canonical_canonical path
  obtain ⟨hslash, hnormal⟩ := canonical_eq_self_iff_isNormal.1 hidem
  refine ⟨hslash, hnormal, hidem, canonical_eq_self_iff_isNormal, fun other => ?_,
    Route.ofPath_eq_settle _⟩
  constructor
  · intro h
    have hsame := Route.ofPath_eq_of_canonical_eq h
    exact ⟨congrArg Route.rooted hsame, congrArg Route.climbs hsame, congrArg Route.stack hsame⟩
  · rintro ⟨hrooted, hclimbs, hstack⟩
    have hsame : Route.ofPath path.toList = Route.ofPath other.toList := by
      generalize Route.ofPath path.toList = route at hrooted hclimbs hstack
      generalize Route.ofPath other.toList = route' at hrooted hclimbs hstack
      obtain ⟨rooted, climbs, stack⟩ := route
      obtain ⟨rooted', climbs', stack'⟩ := route'
      rw [Route.mk.injEq]
      exact ⟨hrooted, hclimbs, hstack⟩
    rw [canonical, canonical, hsame]

example : canonical "a/..\\../b//./c/../d" = "../b/d" := by decide +kernel

end Bundler.Path

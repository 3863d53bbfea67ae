import Bundler.Path.Canonical
import Mathlib.Data.List.Basic

/-!
# Canonical spellings

What a path means is a *proper* route: its stack holds names, and nothing climbs above the root.
The canonical spelling of a proper route means that route again, so a path in its canonical
spelling keeps it. What is appended to such a path makes another one, if it is a name itself.

* `Route.ofPath_proper`: every path means a proper route;
* `Route.ofPath_render`: what the canonical spelling of a proper route means;
* `canonical_canonical`, `canonical_eq_self_iff`: which paths are in their canonical spelling;
* `canonical_append`: a path in its canonical spelling with a name at its end.
-/

namespace Bundler.Path

/-! ### Pieces -/

section

variable {isSeparator : Char → Bool}

/-- A text without separators is one piece. -/
theorem pieces_eq_singleton {text : List Char} (h : ∀ c ∈ text, isSeparator c = false) :
    pieces isSeparator text = [text] := by
  induction text with
  | nil => rfl
  | cons c rest ih =>
    obtain ⟨hc, hrest⟩ := List.forall_mem_cons.1 h
    rw [pieces, ih hrest, hc]
    rfl

/-- What stands before a separator is a piece of its own. -/
theorem pieces_append_cons {text : List Char} (h : ∀ c ∈ text, isSeparator c = false) {c : Char}
    (hc : isSeparator c = true) (rest : List Char) :
    pieces isSeparator (text ++ c :: rest) = text :: pieces isSeparator rest := by
  induction text with
  | nil => rw [List.nil_append, pieces, if_pos hc]
  | cons d text ih =>
    obtain ⟨hd, htext⟩ := List.forall_mem_cons.1 h
    rw [List.cons_append, pieces, ih htext, hd]
    rfl

/-- No piece has a separator in it. -/
theorem not_separator_of_mem_pieces {text piece : List Char} (h : piece ∈ pieces isSeparator text) :
    ∀ c ∈ piece, isSeparator c = false := by
  induction text generalizing piece with
  | nil =>
    obtain rfl := List.mem_singleton.1 h
    exact nofun
  | cons c rest ih =>
    rw [pieces] at h
    split at h
    next =>
      rcases List.mem_cons.1 h with rfl | h
      · exact nofun
      · exact ih h
    next hc =>
      have hc : isSeparator c = false := by simpa using hc
      split at h
      next =>
        obtain rfl := List.mem_singleton.1 h
        exact List.forall_mem_singleton.2 hc
      next first more hrest =>
        rcases List.mem_cons.1 h with rfl | h
        · exact List.forall_mem_cons.2 ⟨hc, ih (hrest ▸ .head _)⟩
        · exact ih (hrest ▸ .tail _ h)

end

theorem joinSegments_cons_cons (first second : List Char) (more : List (List Char)) :
    joinSegments (first :: second :: more) = first ++ '/' :: joinSegments (second :: more) := by
  rw [joinSegments, List.intercalate_cons_cons, List.append_assoc]
  rfl

theorem joinSegments_singleton (segment : List Char) : joinSegments [segment] = segment := by
  simp [joinSegments]

/-- What follows the last segment belongs to it. -/
theorem joinSegments_concat_append (segments : List (List Char)) (last text : List Char) :
    joinSegments (segments ++ [last ++ text]) = joinSegments (segments ++ [last]) ++ text := by
  induction segments with
  | nil => rw [List.nil_append, List.nil_append, joinSegments_singleton, joinSegments_singleton]
  | cons first segments ih =>
    cases segments with
    | nil =>
      simp only [List.cons_append, List.nil_append, joinSegments_cons_cons, joinSegments_singleton,
        List.append_assoc]
    | cons second segments =>
      simp only [List.cons_append] at ih
      simp only [List.cons_append, joinSegments_cons_cons, ih, List.append_assoc]

/-! ### Routes -/

/-- A name that a path can go down. -/
structure IsName (segment : List Char) : Prop where
  /-- It names something. -/
  active : isIdle segment = false
  /-- It does not go up. -/
  ne_parent : segment ≠ ['.', '.']
  /-- It is one segment. -/
  undivided : ∀ c ∈ segment, Route.isDivider c = false

namespace IsName

theorem ne_nil {segment : List Char} (h : IsName segment) : segment ≠ [] := by
  rintro rfl
  exact Bool.noConfusion h.active

/-- A name with something before it is a name. -/
theorem append {front segment : List Char} (h : IsName segment) (hfront : front ≠ [])
    (hundivided : ∀ c ∈ front, Route.isDivider c = false) : IsName (front ++ segment) where
  active := by
    obtain ⟨c, front, rfl⟩ := List.exists_cons_of_ne_nil hfront
    obtain ⟨d, segment, rfl⟩ := List.exists_cons_of_ne_nil h.ne_nil
    cases front with
    | nil => simp [isIdle]
    | cons => simp [isIdle]
  ne_parent := by
    intro heq
    rcases List.append_eq_cons_iff.1 heq with ⟨hnil, -⟩ | ⟨rest, rfl, hrest⟩
    · exact hfront hnil
    · rcases List.append_eq_cons_iff.1 hrest.symm with ⟨rfl, hsegment⟩ | ⟨rest', rfl, hrest'⟩
      · rw [hsegment] at h
        exact Bool.noConfusion h.active
      · exact h.ne_nil (List.append_eq_nil_iff.1 hrest'.symm).2
  undivided := List.forall_mem_append.2 ⟨hundivided, h.undivided⟩

end IsName

namespace Route

/-- A route that some path means. -/
structure Proper (route : Route) : Prop where
  /-- It goes down names. -/
  names : ∀ segment ∈ route.stack, IsName segment
  /-- It does not climb above the root. -/
  climbs_eq : route.rooted = true → route.climbs = 0

/-- One segment more keeps a route proper. -/
theorem Proper.follow {route : Route} (h : route.Proper) {segment : List Char}
    (hundivided : ∀ c ∈ segment, isDivider c = false) : (route.follow segment).Proper := by
  unfold Route.follow
  split
  next => exact h
  next hidle =>
    split
    next =>
      split
      next hstack => exact ⟨fun name hname => h.names name (hstack ▸ .tail _ hname), h.climbs_eq⟩
      next =>
        split
        next => exact h
        next hrooted => exact ⟨h.names, fun hr => absurd hr hrooted⟩
    next hparent =>
      have hname : IsName segment := ⟨by simpa using hidle, hparent, hundivided⟩
      exact ⟨List.forall_mem_cons.2 ⟨hname, h.names⟩, h.climbs_eq⟩

theorem Proper.foldl_follow {route : Route} (h : route.Proper) {segments : List (List Char)}
    (hundivided : ∀ segment ∈ segments, ∀ c ∈ segment, isDivider c = false) :
    (segments.foldl Route.follow route).Proper := by
  induction segments generalizing route with
  | nil => exact h
  | cons segment segments ih =>
    obtain ⟨hfirst, hmore⟩ := List.forall_mem_cons.1 hundivided
    exact ih (h.follow hfirst) hmore

theorem start_proper (rooted : Bool) : (⟨rooted, 0, []⟩ : Route).Proper :=
  ⟨List.forall_mem_nil _, fun _ => rfl⟩

/-- Every path means a proper route. -/
theorem ofPath_proper (path : List Char) : (ofPath path).Proper :=
  (start_proper _).foldl_follow fun _ => not_separator_of_mem_pieces

theorem follow_name (route : Route) {segment : List Char} (h : IsName segment) :
    route.follow segment = { route with stack := segment :: route.stack } := by
  rw [follow, if_neg (by simp [h.active]), if_neg h.ne_parent]

theorem foldl_follow_names (route : Route) {names : List (List Char)}
    (h : ∀ name ∈ names, IsName name) :
    names.foldl follow route = { route with stack := names.reverse ++ route.stack } := by
  induction names generalizing route with
  | nil => rfl
  | cons name names ih =>
    obtain ⟨hname, hnames⟩ := List.forall_mem_cons.1 h
    rw [List.foldl_cons, ih _ hnames, follow_name route hname, List.reverse_cons, List.append_assoc]
    rfl

theorem foldl_follow_climbs (count climbs : Nat) :
    (List.replicate count ['.', '.']).foldl follow ⟨false, climbs, []⟩ =
      ⟨false, climbs + count, []⟩ := by
  induction count generalizing climbs with
  | zero => rfl
  | succ count ih =>
    have hstep : follow ⟨false, climbs, []⟩ ['.', '.'] = ⟨false, climbs + 1, []⟩ := rfl
    rw [List.replicate_succ, List.foldl_cons, hstep, ih, Nat.add_assoc, Nat.add_comm 1]

/-- Who follows the spelling of a proper route comes to that route. -/
theorem Proper.foldl_spelling {route : Route} (h : route.Proper) :
    route.spelling.foldl Route.follow ⟨route.rooted, 0, []⟩ = route := by
  have hnames : ∀ name ∈ route.stack.reverse, IsName name :=
    fun name hname => h.names name (List.mem_reverse.1 hname)
  have hclimbs : (List.replicate route.climbs ['.', '.']).foldl Route.follow
      ⟨route.rooted, 0, []⟩ = ⟨route.rooted, route.climbs, []⟩ := by
    cases hrooted : route.rooted with
    | true => rw [h.climbs_eq hrooted, List.replicate_zero, List.foldl_nil]
    | false => rw [foldl_follow_climbs, Nat.zero_add]
  rw [spelling, List.foldl_append, hclimbs, foldl_follow_names _ hnames, List.reverse_reverse,
    List.append_nil]

theorem Proper.spelling_undivided {route : Route} (h : route.Proper) :
    ∀ segment ∈ route.spelling, ∀ c ∈ segment, isDivider c = false := by
  refine List.forall_mem_append.2 ⟨fun segment hsegment => ?_, fun segment hsegment => ?_⟩
  · rw [List.eq_of_mem_replicate hsegment]
    simp [isDivider]
  · exact (h.names segment (List.mem_reverse.1 hsegment)).undivided

theorem Proper.spelling_ne_nil {route : Route} (h : route.Proper) :
    ∀ segment ∈ route.spelling, segment ≠ [] := by
  refine List.forall_mem_append.2 ⟨fun segment hsegment => ?_, fun segment hsegment => ?_⟩
  · rw [List.eq_of_mem_replicate hsegment]
    exact List.cons_ne_nil _ _
  · exact (h.names segment (List.mem_reverse.1 hsegment)).ne_nil

/-- Joined segments are followed one by one. -/
theorem foldl_pieces_joinSegments (route : Route) {segments : List (List Char)}
    (h : ∀ segment ∈ segments, ∀ c ∈ segment, isDivider c = false) :
    (pieces isDivider (joinSegments segments)).foldl follow route =
      segments.foldl follow route := by
  induction segments generalizing route with
  | nil => rfl
  | cons first segments ih =>
    obtain ⟨hfirst, hmore⟩ := List.forall_mem_cons.1 h
    cases segments with
    | nil => rw [joinSegments_singleton, pieces_eq_singleton hfirst]
    | cons second segments =>
      rw [joinSegments_cons_cons, pieces_append_cons hfirst rfl, List.foldl_cons]
      exact ih _ hmore

/-- A relative spelling does not begin with a divider. -/
theorem head?_joinSegments {first : List Char} (hne : first ≠ [])
    (h : ∀ c ∈ first, isDivider c = false) (more : List (List Char)) :
    (joinSegments (first :: more)).head?.any isDivider = false := by
  obtain ⟨c, first, rfl⟩ := List.exists_cons_of_ne_nil hne
  have hc := (List.forall_mem_cons.1 h).1
  cases more with
  | nil => rwa [joinSegments_singleton]
  | cons => rwa [joinSegments_cons_cons]

/-- The canonical spelling of a proper route means that route. -/
theorem ofPath_render {route : Route} (h : route.Proper) : ofPath route.render = route := by
  have hfollow (start : Route) := foldl_pieces_joinSegments start h.spelling_undivided
  have hspelling := h.foldl_spelling
  unfold render ofPath
  cases hrooted : route.rooted with
  | true =>
    rw [hrooted] at hspelling
    exact (hfollow _).trans hspelling
  | false =>
    rw [hrooted] at hspelling
    rw [if_neg Bool.false_ne_true]
    cases hsegments : route.spelling with
    | nil =>
      rw [hsegments] at hspelling
      exact hspelling
    | cons first more =>
      have hmem : first ∈ route.spelling := hsegments ▸ .head _
      rw [hsegments] at hspelling hfollow
      rw [List.isEmpty_cons, if_neg Bool.false_ne_true,
        head?_joinSegments (h.spelling_ne_nil first hmem) (h.spelling_undivided first hmem),
        hfollow]
      exact hspelling

/-- A name that is appended to the canonical spelling of a route belongs to its last segment, which
    is a name then. -/
theorem Proper.exists_render_append {route : Route} (h : route.Proper) {text : List Char}
    (ht : IsName text) :
    ∃ other : Route, other.Proper ∧ other.stack ≠ [] ∧ other.render = route.render ++ text := by
  obtain ⟨rooted, climbs, stack⟩ := route
  cases stack with
  | cons last names =>
    obtain ⟨hlast, hnames⟩ := List.forall_mem_cons.1 h.names
    have hname := ht.append hlast.ne_nil hlast.undivided
    refine ⟨⟨rooted, climbs, (last ++ text) :: names⟩,
      ⟨List.forall_mem_cons.2 ⟨hname, hnames⟩, h.climbs_eq⟩, List.cons_ne_nil _ _, ?_⟩
    simp only [render, spelling, List.reverse_cons, ← List.append_assoc, joinSegments_concat_append]
    cases rooted with
    | true => rfl
    | false => simp
  | nil =>
    cases climbs with
    | zero =>
      cases rooted with
      | true =>
        refine ⟨⟨true, 0, [text]⟩, ⟨List.forall_mem_singleton.2 ht, fun _ => rfl⟩,
          List.cons_ne_nil _ _, ?_⟩
        simp [render, spelling, joinSegments]
      | false =>
        -- The path was `.`, which is no segment, and becomes one.
        have hname : IsName (['.'] ++ text) :=
          ht.append (List.cons_ne_nil _ _) (by simp [isDivider])
        refine ⟨⟨false, 0, [['.'] ++ text]⟩, ⟨List.forall_mem_singleton.2 hname, nofun⟩,
          List.cons_ne_nil _ _, ?_⟩
        simp [render, spelling, joinSegments]
    | succ climbs =>
      -- The last `..` becomes a name.
      have hrooted : rooted = false := by
        cases rooted with
        | true => exact absurd (h.climbs_eq rfl) (Nat.succ_ne_zero _)
        | false => rfl
      subst hrooted
      have hname : IsName (['.', '.'] ++ text) :=
        ht.append (List.cons_ne_nil _ _) (by simp [isDivider])
      refine ⟨⟨false, climbs, [['.', '.'] ++ text]⟩,
        ⟨List.forall_mem_singleton.2 hname, nofun⟩, List.cons_ne_nil _ _, ?_⟩
      have hother : (⟨false, climbs, [['.', '.'] ++ text]⟩ : Route).spelling =
          List.replicate climbs ['.', '.'] ++ [['.', '.'] ++ text] := rfl
      have hroute : (⟨false, climbs + 1, []⟩ : Route).spelling =
          List.replicate climbs ['.', '.'] ++ [['.', '.']] := by
        rw [spelling, List.replicate_succ', List.reverse_nil, List.append_nil]
      simp only [render, hother, hroute, joinSegments_concat_append]
      simp

end Route

/-! ### Paths -/

/-- A path is in its canonical spelling if it spells a proper route. -/
theorem canonical_eq_self_iff {path : String} :
    canonical path = path ↔ ∃ route : Route, route.Proper ∧ route.render = path.toList := by
  constructor
  · intro h
    refine ⟨Route.ofPath path.toList, Route.ofPath_proper _, ?_⟩
    rw [← String.toList_ofList (l := (Route.ofPath path.toList).render)]
    exact congrArg String.toList h
  · rintro ⟨route, hroute, hrender⟩
    rw [canonical, ← hrender, Route.ofPath_render hroute, hrender, String.ofList_toList]

/-- The canonical spelling is in its canonical spelling. -/
theorem canonical_canonical (path : String) : canonical (canonical path) = canonical path :=
  canonical_eq_self_iff.2
    ⟨Route.ofPath path.toList, Route.ofPath_proper _, String.toList_ofList.symm⟩

/-- A path in its canonical spelling stays in it when a name is appended. -/
theorem canonical_append {path ending : String} (h : canonical path = path)
    (hending : IsName ending.toList) : canonical (path ++ ending) = path ++ ending := by
  obtain ⟨route, hroute, hrender⟩ := canonical_eq_self_iff.1 h
  obtain ⟨other, hother, -, hrender'⟩ := hroute.exists_render_append hending
  exact canonical_eq_self_iff.2
    ⟨other, hother, by rw [hrender', hrender, String.toList_append]⟩

end Bundler.Path

import Bundler.Config
import Bundler.Proofs.Path.Directory

/-!
# The spelling of candidates

The index files that are tried for an identifier are in their canonical spelling whatever the
endings are. A path with an ending appended is so for every canonical identifier if it is for the
root, that is, if the ending is a row of names. A configuration accepts more endings than these: an
ending may go on behind a divider and lead up from there, and then it leads to a file by a path
that is not its canonical spelling.

* `canonical_append_iff`: the endings that keep every canonical spelling one;
* `Locator.canonical_candidates_iff`: the endings with which only canonical spellings are tried;
* `Config.canonical_candidates_of_merge`: which accepted endings are such endings.
-/

namespace Bundler

namespace Path

/-- Names stand behind the canonical spelling of a route that goes down to a name. -/
theorem Route.Proper.exists_render_append_names {route : Route} (h : route.Proper)
    (hstack : route.stack ≠ []) {names : List (List Char)} (hne : names ≠ [])
    (hnames : ∀ name ∈ names, IsName name) :
    ∃ other : Route, other.Proper ∧ other.render = route.render ++ '/' :: joinSegments names := by
  let other : Route := { route with stack := names.reverse ++ route.stack }
  have hspelling : other.spelling = route.spelling ++ names := by
    simp only [other, spelling, List.reverse_append, List.reverse_reverse, List.append_assoc]
  have hfront : route.spelling ≠ [] := by
    rw [spelling]
    exact List.append_ne_nil_of_right_ne_nil _ (by simpa using hstack)
  have hother : other.Proper :=
    ⟨List.forall_mem_append.2 ⟨fun name hname => hnames name (List.mem_reverse.1 hname), h.names⟩,
      h.climbs_eq⟩
  refine ⟨other, hother, ?_⟩
  have hjoin := joinSegments_append hfront hne
  cases hrooted : route.rooted with
  | true => rw [render, if_pos hrooted, hspelling, hjoin, render, if_pos hrooted, List.cons_append]
  | false =>
    have hrooted' : ¬other.rooted = true := by simp [other, hrooted]
    have hrooted : ¬route.rooted = true := by simp [hrooted]
    rw [render, if_neg hrooted', if_neg (by simp [hspelling, hne]), hspelling, hjoin, render,
      if_neg hrooted, if_neg (by simpa using hfront)]

/-- A path from the root in its canonical spelling is a row of names behind a `/`. -/
theorem exists_names_of_canonical {path : String} (h : canonical ("/" ++ path) = "/" ++ path) :
    ∃ names : List (List Char), (∀ name ∈ names, IsName name) ∧
      path.toList = joinSegments names := by
  obtain ⟨route, hroute, hrender⟩ := canonical_eq_self_iff.1 h
  have htext : ("/" ++ path).toList = '/' :: path.toList := by
    rw [String.toList_append]
    rfl
  rw [htext] at hrender
  have hrooted : route.rooted = true := by
    have hhead := Route.rooted_ofPath route.render
    rwa [Route.ofPath_render hroute, hrender] at hhead
  rw [Route.render, if_pos hrooted, Route.spelling, hroute.climbs_eq hrooted, List.replicate_zero,
    List.nil_append] at hrender
  exact ⟨route.stack.reverse, fun name hname => hroute.names name (List.mem_reverse.1 hname),
    (List.cons.inj hrender).2.symm⟩

/-- An ending keeps every canonical spelling one if it does so for the root. -/
theorem canonical_append_iff (ending : String) :
    (∀ path, canonical path = path → canonical (path ++ ending) = path ++ ending) ↔
      canonical ("/" ++ ending) = "/" ++ ending := by
  constructor
  · intro h
    exact h "/" (by decide +kernel)
  · intro hroot path hpath
    obtain ⟨names, hnames, hending⟩ := exists_names_of_canonical hroot
    obtain ⟨route, hroute, hrender⟩ := canonical_eq_self_iff.1 hpath
    rw [canonical_eq_self_iff, String.toList_append, hending, ← hrender]
    cases names with
    | nil => exact ⟨route, hroute, (List.append_nil _).symm⟩
    | cons first more =>
      obtain ⟨hfirst, hmore⟩ := List.forall_mem_cons.1 hnames
      -- The first name goes on with the last segment, and the others come behind it.
      obtain ⟨other, hother, hstack, hrender'⟩ := hroute.exists_render_append hfirst
      cases more with
      | nil => exact ⟨other, hother, by rw [hrender', joinSegments_singleton]⟩
      | cons second more =>
        obtain ⟨last, hlast, hrender''⟩ :=
          hother.exists_render_append_names hstack (List.cons_ne_nil second more) hmore
        exact ⟨last, hlast, by rw [hrender'', hrender', joinSegments_cons_cons, List.append_assoc]⟩

/-- A name is such an ending. -/
theorem canonical_root_append {ending : String} (h : IsName ending.toList) :
    canonical ("/" ++ ending) = "/" ++ ending :=
  canonical_append (by decide +kernel) h

end Path

/-- What is tried for identifiers in their canonical spelling is in its canonical spelling if the
    endings keep it, which has to be seen for the root only. -/
theorem Locator.canonical_candidates_iff (locator : Locator) :
    (∀ id, Path.canonical id = id →
      ∀ candidate ∈ locator.candidates id, Path.canonical candidate = candidate) ↔
      ∀ ending ∈ locator.extensions, Path.canonical ("/" ++ ending) = "/" ++ ending := by
  constructor
  · intro h ending hending
    refine h "/" (by decide +kernel) _ ?_
    exact List.mem_append_left _ (.tail _ (List.mem_map_of_mem hending))
  · intro h id hid
    refine List.forall_mem_append.2 ⟨List.forall_mem_cons.2 ⟨hid, ?_⟩, ?_⟩
    · rw [List.forall_mem_map]
      exact fun ending hending => (Path.canonical_append_iff ending).2 (h ending hending) id hid
    · rw [List.forall_mem_map]
      exact fun _ _ => Path.canonical_canonical _

namespace Config

/-- The endings of a plan are a dot and something after it. -/
theorem isExtension_of_merge {loaded : Option LoadedSettings} {overrides : Overrides} {plan : Plan}
    (h : merge loaded overrides = .ok plan) :
    ∀ ending ∈ plan.extensions, isExtension ending = true := by
  unfold merge at h
  dsimp only at h
  split at h
  · cases h
  split at h
  · cases h
  next hfault =>
    cases h
    unfold fault? at hfault
    split at hfault
    · cases hfault
    · intro ending hending
      have hnone := List.find?_eq_none.1 (Option.map_eq_none_iff.1 hfault) ending hending
      simpa using hnone

/-- A dot and something after it is a name, unless that has a divider in it or is one more dot. -/
theorem isName_of_isExtension {ending : String} (h : isExtension ending = true)
    (hundivided : ∀ c ∈ ending.toList, Path.Route.isDivider c = false) (hparent : ending ≠ "..") :
    Path.IsName ending.toList where
  active := by
    simp only [isExtension, Bool.and_eq_true, decide_eq_true_eq] at h
    have hlength := h.2
    rw [Path.isIdle, Bool.or_eq_false_iff, List.isEmpty_eq_false_iff, beq_eq_false_iff_ne]
    refine ⟨fun hnil => ?_, fun hdot => ?_⟩
    · rw [hnil] at hlength
      exact absurd hlength (by decide)
    · rw [hdot] at hlength
      exact absurd hlength (by decide)
  ne_parent := fun heq => hparent (String.toList_inj.1 heq)
  undivided := hundivided

/-- With accepted endings, only canonical spellings are tried for identifiers in theirs exactly if
    each ending is a row of names; so is each that has no divider in it and is not `..`. -/
theorem canonical_candidates_of_merge {loaded : Option LoadedSettings} {overrides : Overrides}
    {plan : Plan} (h : merge loaded overrides = .ok plan) :
    ((∀ id, Path.canonical id = id → ∀ candidate ∈ Locator.candidates ⟨plan.extensions⟩ id,
        Path.canonical candidate = candidate) ↔
      ∀ ending ∈ plan.extensions, Path.canonical ("/" ++ ending) = "/" ++ ending) ∧
      ∀ ending ∈ plan.extensions, (∀ c ∈ ending.toList, Path.Route.isDivider c = false) →
        ending ≠ ".." → Path.canonical ("/" ++ ending) = "/" ++ ending :=
  ⟨Locator.canonical_candidates_iff ⟨plan.extensions⟩, fun ending hending hundivided hparent =>
    Path.canonical_root_append
      (isName_of_isExtension (isExtension_of_merge h ending hending) hundivided hparent)⟩

/-- Settings that are accepted, with an ending that leads from `a` to `b.js`. -/
def roundabout : Settings :=
  { Settings.default with entry := some "main.js", extensions := ["./../b.js", ".js"] }

theorem canonical_candidates_of_merge_roundabout :
    ∃ plan, merge (some ⟨roundabout, ""⟩) ⟨none, none, none⟩ = .ok plan ∧
      Path.canonical ("/" ++ ".js") = "/" ++ ".js" ∧
      ¬∀ id, Path.canonical id = id → ∀ candidate ∈ Locator.candidates ⟨plan.extensions⟩ id,
        Path.canonical candidate = candidate := by
  have hmerge : merge (some ⟨roundabout, ""⟩) ⟨none, none, none⟩ =
      .ok { Plan.ofEntry "main.js" with extensions := ["./../b.js", ".js"] } := by
    decide +kernel
  obtain ⟨hiff, hplain⟩ := canonical_candidates_of_merge hmerge
  have hundivided : ∀ c ∈ ".js".toList, Path.Route.isDivider c = false := by
    simp [Path.Route.isDivider]
  refine ⟨_, hmerge, hplain ".js" (by decide) hundivided (by decide), fun h => ?_⟩
  exact absurd (hiff.1 h "./../b.js" (by decide)) (by decide +kernel)

end Config

end Bundler

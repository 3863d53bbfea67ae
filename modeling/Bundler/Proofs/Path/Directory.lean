import Bundler.Proofs.Path.Canonical
import Bundler.Specifier

/-!
# Paths in a directory

What stands in a directory is reached by the path of the directory and the path from there on. A
relative path that never leads up means below a directory what it means where it is, so its
canonical spelling, the directory of a file, and what a specifier stands for are the same below a
directory as outside of it, behind the path of the directory.

* `under`: a path below a directory;
* `ofPath_join`: a relative path that is seen from a directory is followed from there;
* `LeadsDown`: a canonical path that leads to something below where it starts;
* `Way`: the names that a canonical path goes down;
* `canonical_under`: the canonical spelling of a path below a directory;
* `Way.resolve_under`: what a specifier stands for in a module below a directory.
-/

namespace Bundler.Path

/-- A path that is seen from a directory. -/
def under (dir path : String) : String :=
  dir ++ "/" ++ path

/-- What a path in its canonical spelling leads to stands below the place where it starts: it is not
    that place, and the path does not go up first. -/
def LeadsDown (path : String) : Prop :=
  path ≠ "." ∧ (segments path.toList).head? ≠ some ['.', '.']

instance (path : String) : Decidable (LeadsDown path) :=
  inferInstanceAs (Decidable (_ ∧ _))

theorem under_injective (dir : String) : Function.Injective (under dir) :=
  fun _ _ h => (String.append_right_inj _).1 h

theorem toList_under (dir path : String) :
    (under dir path).toList = dir.toList ++ '/' :: path.toList := by
  simp [under]

/-! ### Segments one after another -/

section

variable {isSeparator : Char → Bool}

theorem pieces_ne_nil (text : List Char) : pieces isSeparator text ≠ [] := by
  cases text with
  | nil => exact List.cons_ne_nil _ _
  | cons c rest =>
    rw [pieces]
    split
    · exact List.cons_ne_nil _ _
    · split
      · exact List.cons_ne_nil _ _
      · exact List.cons_ne_nil _ _

/-- A separator parts the pieces before it from those behind it. -/
theorem pieces_append {c : Char} (hc : isSeparator c = true) (text rest : List Char) :
    pieces isSeparator (text ++ c :: rest) =
      pieces isSeparator text ++ pieces isSeparator rest := by
  induction text with
  | nil =>
    show pieces isSeparator (c :: rest) = [] :: pieces isSeparator rest
    rw [pieces, if_pos hc]
  | cons d text ih =>
    rw [List.cons_append, pieces, ih, pieces]
    split
    · rw [List.cons_append]
    · cases h : pieces isSeparator text with
      | nil => exact absurd h (pieces_ne_nil text)
      | cons => rfl

/-- Joined segments are the pieces of the text. -/
theorem pieces_joinSegments (hslash : isSeparator '/' = true) {segments : List (List Char)}
    (hne : segments ≠ []) (h : ∀ segment ∈ segments, ∀ c ∈ segment, isSeparator c = false) :
    pieces isSeparator (joinSegments segments) = segments := by
  induction segments with
  | nil => exact absurd rfl hne
  | cons first more ih =>
    obtain ⟨hfirst, hmore⟩ := List.forall_mem_cons.1 h
    cases more with
    | nil => rw [joinSegments_singleton, pieces_eq_singleton hfirst]
    | cons second more =>
      rw [joinSegments_cons_cons, pieces_append_cons hfirst hslash,
        ih (List.cons_ne_nil _ _) hmore]

end

/-- What a joined text is made of. -/
theorem mem_joinSegments {parts : List (List Char)} {c : Char} (h : c ∈ joinSegments parts) :
    c = '/' ∨ ∃ part ∈ parts, c ∈ part := by
  induction parts with
  | nil => cases h
  | cons first more ih =>
    cases more with
    | nil => exact .inr ⟨first, .head _, joinSegments_singleton first ▸ h⟩
    | cons second more =>
      rw [joinSegments_cons_cons, List.mem_append, List.mem_cons] at h
      rcases h with h | rfl | h
      · exact .inr ⟨first, .head _, h⟩
      · exact .inl rfl
      · exact (ih h).imp_right fun ⟨part, hpart, hc⟩ => ⟨part, .tail _ hpart, hc⟩

theorem joinSegments_append {front back : List (List Char)} (hfront : front ≠ [])
    (hback : back ≠ []) :
    joinSegments (front ++ back) = joinSegments front ++ '/' :: joinSegments back := by
  induction front with
  | nil => exact absurd rfl hfront
  | cons first more ih =>
    cases more with
    | nil =>
      obtain ⟨second, back, rfl⟩ := List.exists_cons_of_ne_nil hback
      rw [List.singleton_append, joinSegments_cons_cons, joinSegments_singleton]
    | cons second more =>
      rw [List.cons_append, List.cons_append, joinSegments_cons_cons, joinSegments_cons_cons,
        ← List.cons_append, ih (List.cons_ne_nil _ _), List.append_assoc, List.cons_append]

/-- Segments without dividers are those of the joined text. -/
theorem segments_joinSegments {parts : List (List Char)} (hne : parts ≠ [])
    (h : ∀ part ∈ parts, ∀ c ∈ part, Route.isDivider c = false) :
    segments (joinSegments parts) = parts := by
  refine pieces_joinSegments rfl hne fun part hpart c hc => ?_
  have := h part hpart c hc
  rw [Route.isDivider, Bool.or_eq_false_iff] at this
  exact this.1

/-! ### Following segments from elsewhere -/

namespace Route

theorem rooted_follow (route : Route) (segment : List Char) :
    (route.follow segment).rooted = route.rooted := by
  unfold follow
  split
  · rfl
  split
  · split
    · rfl
    · split <;> rfl
  · rfl

theorem climbs_le_follow (route : Route) (segment : List Char) :
    route.climbs ≤ (route.follow segment).climbs := by
  unfold follow
  split
  · exact Nat.le_refl _
  split
  · split
    · exact Nat.le_refl _
    · split
      · exact Nat.le_refl _
      · exact Nat.le_succ _
  · exact Nat.le_refl _

theorem rooted_foldl_follow (route : Route) (segments : List (List Char)) :
    (segments.foldl follow route).rooted = route.rooted := by
  induction segments generalizing route with
  | nil => rfl
  | cons segment segments ih => rw [List.foldl_cons, ih, rooted_follow]

theorem climbs_le_foldl_follow (route : Route) (segments : List (List Char)) :
    route.climbs ≤ (segments.foldl follow route).climbs := by
  induction segments generalizing route with
  | nil => exact Nat.le_refl _
  | cons segment segments ih => exact Nat.le_trans (climbs_le_follow route segment) (ih _)

/-- Segments that never lead up from where they start lead as far down from any other place. -/
theorem foldl_follow_onto (place : Route) {segments : List (List Char)}
    {stack names : List (List Char)}
    (h : segments.foldl follow ⟨false, 0, stack⟩ = ⟨false, 0, names⟩) :
    segments.foldl follow { place with stack := stack ++ place.stack } =
      { place with stack := names ++ place.stack } := by
  induction segments generalizing stack with
  | nil =>
    cases h
    rfl
  | cons segment segments ih =>
    rw [List.foldl_cons] at h ⊢
    unfold follow at h ⊢
    split at h
    next hidle =>
      rw [if_pos hidle]
      exact ih h
    next hidle =>
      rw [if_neg hidle]
      split at h
      next hparent =>
        rw [if_pos hparent]
        cases stack with
        | cons name stack => exact ih h
        | nil =>
          -- Here the segments would lead up, and nothing that follows would undo it.
          have hclimbs := climbs_le_foldl_follow ⟨false, 1, []⟩ segments
          rw [show segments.foldl follow ⟨false, 1, []⟩ = _ from h] at hclimbs
          exact absurd hclimbs (Nat.not_succ_le_zero 0)
      next hparent =>
        rw [if_neg hparent]
        exact ih h

/-- A path that goes on behind a `/` is followed from where it stands there. -/
theorem ofPath_append {front : List Char} (hfront : front ≠ []) (rest : List Char) :
    ofPath (front ++ '/' :: rest) = (pieces isDivider rest).foldl follow (ofPath front) := by
  obtain ⟨c, front, rfl⟩ := List.exists_cons_of_ne_nil hfront
  unfold ofPath
  rw [pieces_append rfl, List.foldl_append]
  rfl

theorem rooted_ofPath (text : List Char) : (ofPath text).rooted = text.head?.any isDivider :=
  rooted_foldl_follow _ _

/-- A path that is not rooted is followed from a relative start. -/
theorem foldl_pieces_of_ofPath {text : List Char} {climbs : Nat} {names : List (List Char)}
    (h : ofPath text = ⟨false, climbs, names⟩) :
    (pieces isDivider text).foldl follow ⟨false, 0, []⟩ = ⟨false, climbs, names⟩ := by
  have hhead : text.head?.any isDivider = false := by rw [← rooted_ofPath, h]
  unfold ofPath at h
  rwa [hhead] at h

end Route

/-- A path is absolute in its canonical spelling if it is rooted. -/
theorem isAbsolute_canonical (path : String) :
    isAbsolute (canonical path) = (Route.ofPath path.toList).rooted := by
  have hproper := Route.ofPath_proper path.toList
  rw [isAbsolute, canonical, String.toList_ofList]
  generalize Route.ofPath path.toList = route at hproper
  cases hrooted : route.rooted with
  | true => rw [Route.render, if_pos hrooted, List.head?_cons, beq_self_eq_true]
  | false =>
    have hhead := Route.rooted_ofPath route.render
    rw [Route.ofPath_render hproper, hrooted] at hhead
    rw [beq_eq_false_iff_ne]
    intro hslash
    rw [hslash] at hhead
    cases hhead

/-- A relative path that is seen from a directory is followed from there. -/
theorem ofPath_join (dir : String) {path : String}
    (hpath : path.toList.head?.any Route.isDivider = false) :
    Route.ofPath (join dir path).toList =
      (pieces Route.isDivider path.toList).foldl Route.follow (Route.ofPath dir.toList) := by
  have habsolute : isAbsolute path = false := by
    rw [isAbsolute, beq_eq_false_iff_ne]
    intro hslash
    rw [hslash] at hpath
    cases hpath
  rw [join, habsolute, Bool.false_or]
  split
  next hempty =>
    rw [String.isEmpty_iff.1 hempty, Route.ofPath, hpath]
    rfl
  next hempty =>
    have hne : dir.toList ≠ [] := fun hnil => hempty (String.isEmpty_iff.2 (String.toList_inj.1 hnil))
    split
    next hlast =>
      -- The directory ends in the divider that joins them.
      obtain ⟨front, hfront⟩ := List.getLast?_eq_some_iff.1 (eq_of_beq hlast)
      have hjoin : (dir ++ path).toList = front ++ '/' :: path.toList := by
        rw [String.toList_append, hfront, List.append_assoc]
        rfl
      rw [hjoin, hfront]
      rcases eq_or_ne front [] with rfl | hfrontne
      · rfl
      · rw [Route.ofPath_append hfrontne, Route.ofPath_append hfrontne]
        rfl
    next =>
      have hjoin : (dir ++ "/" ++ path).toList = dir.toList ++ '/' :: path.toList := by
        rw [String.toList_append, String.toList_append, List.append_assoc]
        rfl
      rw [hjoin, Route.ofPath_append hne]

/-! ### Dividers -/

/-- A canonical spelling has no divider but `/`. -/
theorem Route.Proper.not_mem_render {route : Route} (h : route.Proper) : '\\' ∉ route.render := by
  have hjoin : '\\' ∉ joinSegments route.spelling := by
    intro hmem
    rcases mem_joinSegments hmem with hslash | ⟨segment, hsegment, hc⟩
    · exact absurd hslash (by decide)
    · exact absurd (h.spelling_undivided segment hsegment _ hc) (by decide)
  unfold render
  split
  · exact List.not_mem_cons_of_ne_of_not_mem (by decide) hjoin
  split
  · decide
  · exact hjoin

theorem slashed_eq_self {path : String} (h : '\\' ∉ path.toList) : slashed path = path := by
  have hkept : ∀ c ∈ path.toList, (if c == '\\' then '/' else c) = c := by
    intro c hc
    have hne : c ≠ '\\' := fun heq => h (heq ▸ hc)
    rw [if_neg (by simpa using hne)]
  rw [slashed, List.map_congr_left hkept, List.map_id', String.ofList_toList]

/-! ### Ways down -/

/-- A path in its canonical spelling that goes down some names, the last one first, from the root
    or from where it starts. -/
structure Way (path : String) (rooted : Bool) (names : List (List Char)) : Prop where
  /-- Each is a name. -/
  isName : ∀ name ∈ names, IsName name
  /-- There is one. -/
  ne_nil : names ≠ []
  /-- The path spells them. -/
  spelled : path.toList = (⟨rooted, 0, names⟩ : Route).render

/-- How a way down is spelled. -/
theorem Route.render_down (rooted : Bool) {names : List (List Char)} (h : names ≠ []) :
    (⟨rooted, 0, names⟩ : Route).render =
      if rooted then '/' :: joinSegments names.reverse else joinSegments names.reverse := by
  cases rooted with
  | true => rfl
  | false => simp [render, spelling, h]

namespace Way

variable {dir path : String} {rooted : Bool} {last : List Char} {names place : List (List Char)}

theorem proper (h : Way path rooted names) : (⟨rooted, 0, names⟩ : Route).Proper :=
  ⟨h.isName, fun _ => rfl⟩

theorem ofPath (h : Way path rooted names) : Route.ofPath path.toList = ⟨rooted, 0, names⟩ := by
  rw [h.spelled, Route.ofPath_render h.proper]

theorem canonical (h : Way path rooted names) : canonical path = path :=
  canonical_eq_self_iff.2 ⟨_, h.proper, h.spelled.symm⟩

/-- A path that goes the same way has its canonical spelling in it. -/
theorem canonical_eq (h : Way path rooted names) {other : String}
    (hother : Route.ofPath other.toList = ⟨rooted, 0, names⟩) : Path.canonical other = path := by
  rw [Path.canonical, hother, ← h.spelled, String.ofList_toList]

theorem toList_eq (h : Way path rooted names) : path.toList =
    if rooted then '/' :: joinSegments names.reverse else joinSegments names.reverse :=
  h.spelled.trans (Route.render_down rooted h.ne_nil)

theorem toList_ne_nil (h : Way path rooted names) : path.toList ≠ [] := by
  intro hnil
  have hroute := h.ofPath
  rw [hnil] at hroute
  exact h.ne_nil (congrArg Route.stack hroute).symm

/-- What is seen from a directory goes down its names behind those of the directory. -/
theorem under (hdir : Way dir rooted place) (h : Way path false names) :
    Way (under dir path) rooted (names ++ place) where
  isName := List.forall_mem_append.2 ⟨h.isName, hdir.isName⟩
  ne_nil := List.append_ne_nil_of_left_ne_nil h.ne_nil _
  spelled := by
    rw [toList_under, hdir.toList_eq, h.toList_eq, if_neg Bool.false_ne_true,
      Route.render_down _ (List.append_ne_nil_of_left_ne_nil h.ne_nil _), List.reverse_append,
      joinSegments_append (by simpa using hdir.ne_nil) (by simpa using h.ne_nil)]
    cases rooted <;> rfl

/-- A name at the end of a path belongs to its last name. -/
theorem append (h : Way path rooted (last :: names)) {ending : String}
    (hending : IsName ending.toList) :
    Way (path ++ ending) rooted ((last ++ ending.toList) :: names) where
  isName := by
    obtain ⟨hlast, hnames⟩ := List.forall_mem_cons.1 h.isName
    exact List.forall_mem_cons.2 ⟨hending.append hlast.ne_nil hlast.undivided, hnames⟩
  ne_nil := List.cons_ne_nil _ _
  spelled := by
    rw [String.toList_append, h.toList_eq, Route.render_down _ (List.cons_ne_nil _ _),
      List.reverse_cons, List.reverse_cons, joinSegments_concat_append]
    cases rooted <;> rfl

/-- A path that goes down some names is in its canonical spelling the way down those names. -/
theorem ofRoute (h : Route.ofPath path.toList = ⟨rooted, 0, names⟩) (hne : names ≠ []) :
    Way (Path.canonical path) rooted names where
  isName := by
    have := (Route.ofPath_proper path.toList).names
    rwa [h] at this
  ne_nil := hne
  spelled := by rw [Path.canonical, h, String.toList_ofList]

/-- A name behind a path is one more name to go down. -/
theorem ofPath_concat (h : Way path rooted names) {name : String} (hname : IsName name.toList) :
    Route.ofPath (Path.under path name).toList = ⟨rooted, 0, name.toList :: names⟩ := by
  rw [toList_under, Route.ofPath_append h.toList_ne_nil, h.ofPath,
    pieces_eq_singleton hname.undivided]
  exact Route.follow_name _ hname

theorem concat (h : Way path rooted names) {name : String} (hname : IsName name.toList) :
    Way (Path.canonical (Path.under path name)) rooted (name.toList :: names) :=
  ofRoute (h.ofPath_concat hname) (List.cons_ne_nil _ _)

/-- A name behind a path is below a directory a name behind the path there. -/
theorem canonical_concat_under (hdir : Way dir rooted place) (h : Way path false names)
    {name : String} (hname : IsName name.toList) :
    Path.canonical (Path.under (Path.under dir path) name) =
      Path.under dir (Path.canonical (Path.under path name)) :=
  (hdir.under (h.concat hname)).canonical_eq ((hdir.under h).ofPath_concat hname)

end Way

/-- A path that is not rooted and whose canonical spelling leads down goes a way down. -/
theorem exists_way {path : String} (hrooted : (Route.ofPath path.toList).rooted = false)
    (h : LeadsDown (canonical path)) :
    ∃ names, Route.ofPath path.toList = ⟨false, 0, names⟩ ∧ Way (canonical path) false names := by
  have hproper := Route.ofPath_proper path.toList
  have hlist : (canonical path).toList = (Route.ofPath path.toList).render := String.toList_ofList
  generalize Route.ofPath path.toList = route at hrooted hproper hlist
  obtain ⟨rooted, climbs, names⟩ := route
  obtain rfl : rooted = false := hrooted
  cases climbs with
  | zero =>
    have hne : names ≠ [] := by
      rintro rfl
      exact h.1 (String.toList_inj.1 hlist)
    exact ⟨names, rfl, hproper.names, hne, hlist⟩
  | succ climbs =>
    -- The first segment would be `..`.
    refine absurd ?_ h.2
    have hspelling : (⟨false, climbs + 1, names⟩ : Route).spelling =
        ['.', '.'] :: (⟨false, climbs, names⟩ : Route).spelling := by
      simp [Route.spelling, List.replicate_succ]
    rw [hlist, Route.render, if_neg Bool.false_ne_true, hspelling, List.isEmpty_cons,
      if_neg Bool.false_ne_true, ← hspelling,
      segments_joinSegments (by rw [hspelling]; exact List.cons_ne_nil _ _)
        hproper.spelling_undivided, hspelling, List.head?_cons]

/-- A rooted path in its canonical spelling other than the root goes a way down. -/
theorem exists_way_of_isAbsolute {path : String} (hcanonical : canonical path = path)
    (habsolute : isAbsolute path = true) (hroot : path ≠ "/") : ∃ names, Way path true names := by
  obtain ⟨⟨rooted, climbs, names⟩, hproper, hrender⟩ := canonical_eq_self_iff.1 hcanonical
  have hrooted : rooted = true := by
    rw [← hcanonical, isAbsolute_canonical, ← hrender, Route.ofPath_render hproper] at habsolute
    exact habsolute
  subst hrooted
  obtain rfl : climbs = 0 := hproper.climbs_eq rfl
  refine ⟨names, hproper.names, ?_, hrender.symm⟩
  rintro rfl
  exact hroot (String.toList_inj.1 hrender.symm)

/-- The canonical spelling of a path below a directory is that of the path below the directory. -/
theorem canonical_under {dir path : String} {place : List (List Char)} (hdir : Way dir true place)
    (hrooted : (Route.ofPath path.toList).rooted = false) (h : LeadsDown (canonical path)) :
    canonical (under dir path) = under dir (canonical path) := by
  obtain ⟨names, hpath, hway⟩ := exists_way hrooted h
  have hbelow : Route.ofPath (under dir path).toList = ⟨true, 0, names ++ place⟩ := by
    rw [toList_under, Route.ofPath_append hdir.toList_ne_nil, hdir.ofPath]
    exact Route.foldl_follow_onto ⟨true, 0, place⟩ (Route.foldl_pieces_of_ofPath hpath)
  exact (hdir.under hway).canonical_eq hbelow

/-! ### Directories of files -/

/-- Among segments that are names none is idle. -/
theorem significant_joinSegments {names : List (List Char)} (h : ∀ name ∈ names, IsName name)
    (absolute : Bool) : significant absolute (joinSegments names.reverse) = names := by
  cases names with
  | nil => cases absolute <;> rfl
  | cons last names =>
    have hsegments : segments (joinSegments (last :: names).reverse) = (last :: names).reverse :=
      segments_joinSegments (by simp) fun name hname =>
        (h name (List.mem_reverse.1 hname)).undivided
    have hlast : isIdle last = false := (h last (.head _)).active
    unfold significant
    simp only [hsegments, List.reverse_reverse]
    rw [List.dropWhile_cons_of_neg (by simp [hlast])]
    rfl

namespace Way

variable {path : String} {rooted : Bool} {last : List Char} {names : List (List Char)}

theorem isAbsolute (h : Way path rooted names) : isAbsolute path = rooted := by
  rw [← h.canonical, isAbsolute_canonical, h.ofPath]

theorem significant (h : Way path rooted names) :
    significant rooted (body path) = names := by
  have hbody : body path = joinSegments names.reverse := by
    rw [body, h.isAbsolute, h.toList_eq]
    cases rooted <;> rfl
  rw [hbody, significant_joinSegments h.isName]

theorem last? (h : Way path rooted (last :: names)) : last? path = some last := by
  rw [Path.last?, h.isAbsolute, h.significant, List.head?_cons]

theorem parent? (h : Way path rooted (last :: names)) :
    parent? path = some (String.ofList (if rooted then '/' :: joinSegments names.reverse
      else joinSegments names.reverse)) := by
  have hnames := significant_joinSegments (List.forall_mem_cons.1 h.isName).2 rooted
  unfold Path.parent?
  simp only [h.isAbsolute, h.significant, hnames]

/-- A path in its canonical spelling has no other divider than `/`. -/
theorem slashed (h : Way path rooted names) : slashed path = path :=
  slashed_eq_self (h.spelled ▸ h.proper.not_mem_render)

/-- The directory of a file goes down all names but the last one. -/
theorem directory (h : Way path rooted (last :: names)) :
    (Specifier.directory path).toList =
      if rooted then '/' :: joinSegments names.reverse else joinSegments names.reverse := by
  rw [Specifier.directory, h.slashed, h.parent?, Option.getD_some, String.toList_ofList]

/-- A relative path that is seen from the directory of a file is followed from there. -/
theorem ofPath_join (h : Way path rooted (last :: names)) {specifier : String}
    (hspecifier : specifier.toList.head?.any Route.isDivider = false) :
    Route.ofPath (join (Specifier.directory path) specifier).toList =
      (pieces Route.isDivider specifier.toList).foldl Route.follow ⟨rooted, 0, names⟩ := by
  have hdirectory : Route.ofPath (Specifier.directory path).toList = ⟨rooted, 0, names⟩ := by
    cases names with
    | nil =>
      rw [h.directory]
      cases rooted <;> rfl
    | cons next names =>
      have hway : Way (Specifier.directory path) rooted (next :: names) :=
        ⟨(List.forall_mem_cons.1 h.isName).2, List.cons_ne_nil _ _,
          h.directory.trans (Route.render_down rooted (List.cons_ne_nil _ _)).symm⟩
      exact hway.ofPath
  rw [Path.ofPath_join _ hspecifier, hdirectory]

end Way

/-! ### Files below a directory -/

section

variable {dir id specifier : String} {place names : List (List Char)}

theorem head?_of_isRelative (h : Specifier.isRelative specifier = true) :
    specifier.toList.head? = some '.' := by
  simp only [Specifier.isRelative, Bool.or_eq_true, beq_iff_eq] at h
  rcases h with ((rfl | rfl) | h) | h
  · rfl
  · rfl
  all_goals
    cases hlist : specifier.toList with
    | nil => simp [hlist] at h
    | cons c rest =>
      rw [hlist, List.take_succ_cons] at h
      rw [List.head?_cons, (List.cons.inj h).1]

theorem head?_any_of_isRelative (h : Specifier.isRelative specifier = true) :
    specifier.toList.head?.any Route.isDivider = false := by
  rw [head?_of_isRelative h]
  rfl

/-- A relative specifier stands for the path that is seen from the directory of the file. -/
theorem resolve_of_isRelative (h : Specifier.isRelative specifier = true) :
    Specifier.resolve id specifier =
      .ok (canonical (join (Specifier.directory id) specifier)) := by
  have hhead := head?_of_isRelative h
  have hempty : specifier.isEmpty = false := by
    rw [← Bool.not_eq_true, String.isEmpty_iff]
    rintro rfl
    cases hhead
  have habsolute : isAbsolute specifier = false := by
    rw [isAbsolute, hhead]
    rfl
  rw [Specifier.resolve, hempty, habsolute, h]
  rfl

/-- A relative specifier that leads down in a module leads below a directory as far down there. -/
theorem Way.resolve_under (hdir : Way dir true place) (hid : Way id false names)
    (h : Specifier.isRelative specifier = true) {path : String}
    (hresolve : Specifier.resolve id specifier = .ok path) (hdown : LeadsDown path) :
    (∃ names, Way path false names) ∧
      Specifier.resolve (Path.under dir id) specifier = .ok (Path.under dir path) := by
  obtain ⟨last, names, rfl⟩ := List.exists_cons_of_ne_nil hid.ne_nil
  have hundivided := head?_any_of_isRelative h
  rw [resolve_of_isRelative h] at hresolve ⊢
  obtain rfl := Except.ok.inj hresolve
  have hroute := hid.ofPath_join hundivided
  have hrooted : (Route.ofPath (join (Specifier.directory id) specifier).toList).rooted = false := by
    rw [hroute, Route.rooted_foldl_follow]
  obtain ⟨down, hdown, hway⟩ := exists_way hrooted hdown
  refine ⟨⟨down, hway⟩, congrArg _ ((hdir.under hway).canonical_eq ?_)⟩
  rw [(hdir.under hid).ofPath_join hundivided]
  exact Route.foldl_follow_onto ⟨true, 0, place⟩ (hroute.symm.trans hdown)

/-- A file has the same extension below a directory. -/
theorem Way.extension?_under (hdir : Way dir true place) (hid : Way id false names) :
    extension? (Path.under dir id) = extension? id := by
  obtain ⟨last, names, rfl⟩ := List.exists_cons_of_ne_nil hid.ne_nil
  unfold extension? fileName?
  rw [(hdir.under hid).last?, hid.last?]

end

end Bundler.Path

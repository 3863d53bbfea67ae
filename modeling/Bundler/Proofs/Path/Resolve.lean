import Bundler.Proofs.Path.Directory
import Mathlib.Data.List.Induction
import Mathlib.Data.List.TakeWhile

/-!
# What a specifier stands for

A specifier is followed from the directory of the module that it is written in, and where that leads
depends on what the two paths mean, not on how they are spelled.

* `Route.foldl_follow_spelling`: a relative path is followed from a place as its meaning is spelled;
* `ofPath_directory`: a file is followed from its directory by its name;
* `resolve_congr`: modules and specifiers of one meaning give one identifier.
-/

namespace Bundler.Path

/-! ### Following what a path means -/

namespace Route

/-- Following one segment more is following the spelling with that segment at its end. -/
theorem Proper.foldl_spelling_follow {way : Route} (h : way.Proper) (hrooted : way.rooted = false)
    (place : Route) {segment : List Char} (hsegment : ∀ c ∈ segment, isDivider c = false) :
    (way.follow segment).spelling.foldl Route.follow place =
      (way.spelling.foldl Route.follow place).follow segment := by
  obtain ⟨rooted, climbs, stack⟩ := way
  obtain rfl : rooted = false := hrooted
  by_cases hidle : isIdle segment = true
  · have hstay (route : Route) : route.follow segment = route := by rw [Route.follow, if_pos hidle]
    rw [hstay, hstay]
  by_cases hparent : segment = ['.', '.']
  · subst hparent
    cases stack with
    | nil =>
      have hup : (⟨false, climbs, []⟩ : Route).follow ['.', '.'] = ⟨false, climbs + 1, []⟩ := rfl
      rw [hup, spelling, spelling, List.replicate_succ', List.reverse_nil, List.append_nil,
        List.append_nil, List.foldl_append, List.foldl_cons, List.foldl_nil]
    | cons name names =>
      -- The name that is undone is followed and then left again.
      have hback : (⟨false, climbs, name :: names⟩ : Route).follow ['.', '.'] =
          ⟨false, climbs, names⟩ := rfl
      have hlonger : (⟨false, climbs, name :: names⟩ : Route).spelling =
          (⟨false, climbs, names⟩ : Route).spelling ++ [name] := by
        rw [spelling, spelling, List.reverse_cons, List.append_assoc]
      rw [hback, hlonger, List.foldl_append, List.foldl_cons, List.foldl_nil,
        follow_name _ (h.names name (.head _))]
      rfl
  · have hname : IsName segment := ⟨by simpa using hidle, hparent, hsegment⟩
    rw [follow_name _ hname, spelling, spelling, List.reverse_cons, ← List.append_assoc,
      List.foldl_append, List.foldl_cons, List.foldl_nil]

/-- Segments are followed from a place as the spelling of their meaning is. -/
theorem foldl_follow_spelling (place : Route) {segments : List (List Char)}
    (h : ∀ segment ∈ segments, ∀ c ∈ segment, isDivider c = false) :
    segments.foldl follow place =
      (segments.foldl follow ⟨false, 0, []⟩).spelling.foldl follow place := by
  induction segments using List.reverseRecOn with
  | nil => rfl
  | append_singleton segments segment ih =>
    obtain ⟨hsegments, hsegment⟩ := List.forall_mem_append.1 h
    rw [List.foldl_append, List.foldl_append, List.foldl_cons, List.foldl_nil, List.foldl_cons,
      List.foldl_nil, ih hsegments]
    exact (((start_proper false).foldl_follow hsegments).foldl_spelling_follow
      (rooted_foldl_follow _ _) place (hsegment segment (.head _))).symm

/-- Two relative paths of one meaning lead from a place to one other. -/
theorem foldl_pieces_congr (place : Route) {text other : List Char}
    (hrooted : text.head?.any isDivider = false) (h : ofPath text = ofPath other) :
    (pieces isDivider text).foldl follow place = (pieces isDivider other).foldl follow place := by
  have hother : other.head?.any isDivider = false := by
    rw [← rooted_ofPath, ← h, rooted_ofPath, hrooted]
  unfold ofPath at h
  rw [hrooted, hother] at h
  rw [foldl_follow_spelling place fun _ => not_separator_of_mem_pieces,
    foldl_follow_spelling place fun _ => not_separator_of_mem_pieces, h]

/-- The canonical spelling tells what a path means. -/
theorem ofPath_eq_of_canonical_eq {path other : String} (h : canonical path = canonical other) :
    ofPath path.toList = ofPath other.toList := by
  rw [← ofPath_render (ofPath_proper path.toList), ← ofPath_render (ofPath_proper other.toList),
    String.ofList_inj.1 h]

end Route

/-! ### The directory of a file -/

/-- The segments of a path are its pieces between dividers. -/
theorem segments_slashed (path : String) :
    segments (slashed path).toList = pieces Route.isDivider path.toList := by
  rw [slashed, String.toList_ofList, segments]
  induction path.toList with
  | nil => rfl
  | cons c rest ih =>
    rw [List.map_cons, pieces, pieces, ih]
    by_cases hback : c = '\\'
    · subst hback
      rfl
    by_cases hslash : c = '/'
    · subst hslash
      rfl
    · simp [Route.isDivider, hback, hslash]

theorem isAbsolute_slashed (path : String) :
    isAbsolute (slashed path) = path.toList.head?.any Route.isDivider := by
  rw [isAbsolute, slashed, String.toList_ofList, List.head?_map]
  cases path.toList.head? with
  | none => rfl
  | some c =>
    by_cases hback : c = '\\'
    · subst hback
      rfl
    · simp [Route.isDivider, hback]

/-- The segments that count are the first ones of a path. -/
theorem significant_initial (absolute : Bool) (text : List Char) :
    (significant absolute text).reverse <+: segments text := by
  unfold significant
  dsimp only
  split
  next h =>
    simp only [Bool.and_eq_true, beq_iff_eq] at h
    obtain ⟨more, hmore⟩ := List.head?_eq_some_iff.1 h.2
    exact ⟨more, hmore.symm⟩
  next =>
    have hsuffix := List.dropWhile_suffix (l := (segments text).reverse) isIdle
    simpa using List.reverse_prefix.2 hsuffix

/-- The other segments lead nowhere. -/
theorem foldl_significant (absolute : Bool) (text : List Char) (place : Route) :
    (significant absolute text).reverse.foldl Route.follow place =
      (segments text).foldl Route.follow place := by
  have hstay {route : Route} {idle : List (List Char)} (h : ∀ segment ∈ idle, isIdle segment = true) :
      idle.foldl Route.follow route = route := by
    induction idle with
    | nil => rfl
    | cons segment idle ih =>
      obtain ⟨hfirst, hmore⟩ := List.forall_mem_cons.1 h
      rw [List.foldl_cons, Route.follow, if_pos hfirst, ih hmore]
  have hsplit := List.takeWhile_append_dropWhile (p := isIdle) (l := (segments text).reverse)
  have hidle : ∀ segment ∈ ((segments text).reverse.takeWhile isIdle).reverse,
      isIdle segment = true := fun segment hsegment =>
    List.mem_takeWhile_imp (List.mem_reverse.1 hsegment)
  have hsegments : (segments text).foldl Route.follow place =
      ((segments text).reverse.dropWhile isIdle).reverse.foldl Route.follow place := by
    conv_lhs => rw [← List.reverse_reverse (segments text), ← hsplit, List.reverse_append,
      List.foldl_append, hstay hidle]
  rw [hsegments]
  unfold significant
  dsimp only
  split
  next h =>
    simp only [Bool.and_eq_true, List.isEmpty_iff] at h
    rw [h.1.1]
    rfl
  next => rfl

/-- The last segment that counts names something, unless it is `.`. -/
theorem not_isIdle_of_significant {absolute : Bool} {text name : List Char}
    {rest : List (List Char)} (h : significant absolute text = name :: rest) (hdot : name ≠ ['.']) :
    isIdle name = false := by
  unfold significant at h
  dsimp only at h
  split at h
  next =>
    obtain ⟨rfl, -⟩ := List.cons.inj h
    exact absurd rfl hdot
  next =>
    have hhead := List.head?_dropWhile_not isIdle (segments text).reverse
    rw [h] at hhead
    exact hhead

/-- A path goes through the segments behind its root, if it has one. -/
theorem segments_of_body (path : String) :
    segments path.toList = if isAbsolute path then [] :: segments (body path)
      else segments (body path) := by
  rw [body]
  split
  next habsolute =>
    obtain ⟨rest, hrest⟩ := List.head?_eq_some_iff.1 (eq_of_beq habsolute)
    rw [hrest]
    rfl
  next => rfl

theorem ofPath_eq_foldl_body (path : String) :
    Route.ofPath path.toList = (segments (body (slashed path))).foldl Route.follow
      ⟨isAbsolute (slashed path), 0, []⟩ := by
  rw [Route.ofPath, ← isAbsolute_slashed, ← segments_slashed, segments_of_body]
  split
  · rfl
  · rfl

/-- The segments behind the root have no divider in them. -/
theorem undivided_of_mem_body {path : String} {segment : List Char}
    (h : segment ∈ segments (body (slashed path))) : ∀ c ∈ segment, Route.isDivider c = false := by
  suffices hpiece : segment ∈ pieces Route.isDivider path.toList from
    not_separator_of_mem_pieces hpiece
  rw [← segments_slashed, segments_of_body]
  split
  · exact .tail _ h
  · exact h

/-- A path that does not start at the root starts with a segment that is not empty. -/
theorem segments_ne_nil_cons {text : List Char} (hne : text ≠ []) (hslash : text.head? ≠ some '/')
    (more : List (List Char)) : segments text ≠ [] :: more := by
  obtain ⟨c, rest, rfl⟩ := List.exists_cons_of_ne_nil hne
  have hc : (c == '/') = false := by simpa using hslash
  rw [segments, pieces, hc, if_neg Bool.false_ne_true]
  split
  · exact fun h => List.cons_ne_nil _ _ (List.cons.inj h).1
  · exact fun h => List.cons_ne_nil _ _ (List.cons.inj h).1

/-- What joined segments mean, from the root or from where the path starts. -/
theorem ofPath_joinSegments {absolute : Bool} {front : List (List Char)}
    (h : ∀ segment ∈ front, ∀ c ∈ segment, Route.isDivider c = false)
    (hfirst : absolute = false → front.head? ≠ some []) :
    Route.ofPath (if absolute then '/' :: joinSegments front else joinSegments front) =
      front.foldl Route.follow ⟨absolute, 0, []⟩ := by
  cases absolute with
  | true => exact Route.foldl_pieces_joinSegments _ h
  | false =>
    rw [if_neg Bool.false_ne_true, Route.ofPath, Route.foldl_pieces_joinSegments _ h]
    cases front with
    | nil => rfl
    | cons first more =>
      rw [Route.head?_joinSegments (by simpa using hfirst rfl) (h first (.head _))]

/-- The directory of a file is followed along the segments before its name. -/
theorem ofPath_parent {absolute : Bool} {text name : List Char} {rest : List (List Char)}
    (h : significant absolute text = name :: rest)
    (hslash : absolute = false → text.head? ≠ some '/')
    (hundivided : ∀ segment ∈ segments text, ∀ c ∈ segment, Route.isDivider c = false) :
    let front := (significant absolute (joinSegments rest.reverse)).reverse
    Route.ofPath (if absolute then '/' :: joinSegments front else joinSegments front) =
      rest.reverse.foldl Route.follow ⟨absolute, 0, []⟩ := by
  intro front
  obtain ⟨behind, hbehind⟩ := significant_initial absolute text
  rw [h, List.reverse_cons, List.append_assoc] at hbehind
  have hrest : ∀ segment ∈ rest.reverse, ∀ c ∈ segment, Route.isDivider c = false :=
    fun segment hsegment => hundivided segment (hbehind ▸ List.mem_append_left _ hsegment)
  have hfront : front.foldl Route.follow ⟨absolute, 0, []⟩ =
      rest.reverse.foldl Route.follow ⟨absolute, 0, []⟩ := by
    rw [foldl_significant]
    rcases eq_or_ne rest.reverse [] with hnil | hne
    · rw [hnil]
      rfl
    · rw [segments_joinSegments hne hrest]
  have hinitial : front <+: rest.reverse := by
    rcases eq_or_ne rest.reverse [] with hnil | hne
    · have hempty : front = [] := by
        show (significant absolute (joinSegments rest.reverse)).reverse = []
        rw [hnil]
        cases absolute <;> rfl
      rw [hempty]
      exact List.nil_prefix
    · exact segments_joinSegments hne hrest ▸ significant_initial absolute _
  rw [ofPath_joinSegments (fun segment hsegment => hrest segment (hinitial.subset hsegment)) ?_,
    hfront]
  intro habsolute hfirst
  -- The first segment would be that of a relative path.
  obtain ⟨more, hmore⟩ := List.head?_eq_some_iff.1 hfirst
  obtain ⟨others, hothers⟩ := hinitial
  rw [hmore] at hothers
  have htext : text ≠ [] := by
    rintro rfl
    rw [← hothers] at hbehind
    simpa [segments, pieces] using congrArg List.length hbehind
  rw [← hothers] at hbehind
  exact segments_ne_nil_cons htext (hslash habsolute) _ hbehind.symm

/-- A file is reached from its directory by its name. -/
theorem ofPath_directory {module : String} {name : List Char}
    (h : fileName? (slashed module) = some name) :
    IsName name ∧ Route.ofPath module.toList =
      (Route.ofPath (Specifier.directory module).toList).follow name := by
  obtain ⟨hlast, hplain⟩ := Option.filter_eq_some_iff.1 h
  obtain ⟨rest, hrest⟩ := List.head?_eq_some_iff.1 hlast
  simp only [Bool.and_eq_true, bne_iff_ne] at hplain
  have hslash : isAbsolute (slashed module) = false → (body (slashed module)).head? ≠ some '/' := by
    intro habsolute
    rw [body, habsolute, if_neg Bool.false_ne_true]
    simpa [isAbsolute] using habsolute
  have hdirectory : Route.ofPath (Specifier.directory module).toList =
      rest.reverse.foldl Route.follow ⟨isAbsolute (slashed module), 0, []⟩ := by
    rw [Specifier.directory, parent?]
    simp only [hrest, Option.getD_some, String.toList_ofList]
    exact ofPath_parent hrest hslash fun _ => undivided_of_mem_body
  have hmem : name ∈ segments (body (slashed module)) := by
    refine (significant_initial (isAbsolute (slashed module)) _).subset ?_
    rw [hrest, List.mem_reverse]
    exact .head _
  refine ⟨⟨not_isIdle_of_significant hrest hplain.1, hplain.2, undivided_of_mem_body hmem⟩, ?_⟩
  rw [hdirectory, ofPath_eq_foldl_body, ← foldl_significant (isAbsolute (slashed module)),
    hrest, List.reverse_cons, List.foldl_append, List.foldl_cons, List.foldl_nil]

/-- Files of one canonical spelling stand in directories of one meaning. -/
theorem ofPath_directory_congr {module other : String} (hmodule : (fileName? (slashed module)).isSome)
    (hother : (fileName? (slashed other)).isSome) (h : canonical module = canonical other) :
    Route.ofPath (Specifier.directory module).toList =
      Route.ofPath (Specifier.directory other).toList := by
  obtain ⟨name, hname⟩ := Option.isSome_iff_exists.1 hmodule
  obtain ⟨name', hname'⟩ := Option.isSome_iff_exists.1 hother
  obtain ⟨hisName, hpath⟩ := ofPath_directory hname
  obtain ⟨hisName', hpath'⟩ := ofPath_directory hname'
  have hsame := Route.ofPath_eq_of_canonical_eq h
  rw [hpath, hpath', Route.follow_name _ hisName, Route.follow_name _ hisName'] at hsame
  generalize Route.ofPath (Specifier.directory module).toList = route at hsame ⊢
  generalize Route.ofPath (Specifier.directory other).toList = route' at hsame ⊢
  obtain ⟨rooted, climbs, stack⟩ := route
  obtain ⟨rooted', climbs', stack'⟩ := route'
  simp only [Route.mk.injEq, List.cons.injEq] at hsame ⊢
  exact ⟨hsame.1, hsame.2.1, hsame.2.2.2⟩

/-! ### Identifiers -/

/-- Modules in files, and specifiers of one kind, give the same identifier if they have the same
    canonical spellings. The identifier is in its canonical spelling, and it is absolute if the
    module or the specifier is. -/
theorem resolve_congr {module other specifier spelled : String}
    (hmodule : (fileName? (slashed module)).isSome) (hother : (fileName? (slashed other)).isSome)
    (hmodules : canonical module = canonical other)
    (hkind : (Specifier.isRelative specifier ∧ Specifier.isRelative spelled) ∨
      (isAbsolute specifier ∧ isAbsolute spelled))
    (hspecifiers : canonical specifier = canonical spelled) :
    ∃ id, Specifier.resolve module specifier = .ok id ∧ Specifier.resolve other spelled = .ok id ∧
      canonical id = id ∧
      (isAbsolute (slashed module) ∨ isAbsolute specifier → isAbsolute id) := by
  -- A relative specifier is followed from the directory, and an absolute one from the root.
  rcases hkind with ⟨hrelative, hrelative'⟩ | ⟨habsolute, habsolute'⟩
  · have hhead := head?_any_of_isRelative hrelative
    have hjoin := ofPath_join (Specifier.directory module) hhead
    refine ⟨_, resolve_of_isRelative hrelative, ?_, canonical_canonical _, ?_⟩
    · rw [resolve_of_isRelative hrelative', canonical, canonical, hjoin,
        ofPath_join _ (head?_any_of_isRelative hrelative'),
        ofPath_directory_congr hmodule hother hmodules,
        Route.foldl_pieces_congr _ hhead (Route.ofPath_eq_of_canonical_eq hspecifiers)]
    · rintro (habsolute | habsolute)
      · obtain ⟨name, hname⟩ := Option.isSome_iff_exists.1 hmodule
        rw [isAbsolute_slashed, ← Route.rooted_ofPath, (ofPath_directory hname).2,
          Route.rooted_follow] at habsolute
        rw [isAbsolute_canonical, hjoin, Route.rooted_foldl_follow, habsolute]
      · rw [isAbsolute, head?_of_isRelative hrelative] at habsolute
        cases habsolute
  · have hresolve {module specifier : String} (h : isAbsolute specifier) :
        Specifier.resolve module specifier = .ok (canonical specifier) := by
      have hempty : specifier.isEmpty = false := by
        rw [← Bool.not_eq_true, String.isEmpty_iff]
        rintro rfl
        cases h
      rw [Specifier.resolve, hempty, h]
      rfl
    refine ⟨_, hresolve habsolute, hspecifiers ▸ hresolve habsolute', canonical_canonical _, ?_⟩
    intro
    rw [isAbsolute_canonical, Route.rooted_ofPath, eq_of_beq habsolute]
    rfl

/-- Other spellings, with `..` beyond where the module starts. -/
theorem resolve_climbing_congr :
    (fileName? (slashed "a/..\\../src//x.js")).isSome ∧ (fileName? (slashed "../src/x.js")).isSome ∧
      canonical "a/..\\../src//x.js" = canonical "../src/x.js" ∧
      Specifier.isRelative "./..\\../lib//b.js" ∧ Specifier.isRelative "../../lib/./b.js" ∧
      canonical "./..\\../lib//b.js" = canonical "../../lib/./b.js" ∧
      ∃ id, Specifier.resolve "a/..\\../src//x.js" "./..\\../lib//b.js" = .ok id ∧
        Specifier.resolve "../src/x.js" "../../lib/./b.js" = .ok id ∧ canonical id = id ∧
        (isAbsolute (slashed "a/..\\../src//x.js") ∨ isAbsolute "./..\\../lib//b.js" →
          isAbsolute id) :=
  have hmodule : (fileName? (slashed "a/..\\../src//x.js")).isSome := by decide +kernel
  have hother : (fileName? (slashed "../src/x.js")).isSome := by decide +kernel
  have hmodules : canonical "a/..\\../src//x.js" = canonical "../src/x.js" := by decide +kernel
  have hspecifiers : canonical "./..\\../lib//b.js" = canonical "../../lib/./b.js" := by
    decide +kernel
  have hkind : Specifier.isRelative "./..\\../lib//b.js" ∧
    Specifier.isRelative "../../lib/./b.js" := by decide +kernel
  ⟨hmodule, hother, hmodules, hkind.1, hkind.2, hspecifiers,
    resolve_congr hmodule hother hmodules (.inl hkind) hspecifiers⟩

example : Specifier.resolve "../src/x.js" "../../lib/./b.js" = .ok "../../lib/b.js" := by
  decide +kernel

end Bundler.Path

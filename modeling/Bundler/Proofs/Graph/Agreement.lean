import Bundler.Proofs.Graph.Fault
import Bundler.Proofs.Graph.Reachability

/-!
# Files that are not looked at

Two stores that answer alike whatever a search asks of the first one are alike for the search: it
asks both the same, in the same order, and finds the same graph or fails in the same way, or ends in
neither. What it does not ask for does not matter.

* `View.Agrees`: another store answers a look as well;
* `View.Makes`: what is asked and told on the way, whether there is an end to it or not;
* `View.Searches.congr`, `View.Searches.of_agrees`: the two searches, visit by visit;
* `discover_congr`: the same for the graph of an entry.
-/

namespace Bundler

namespace View

/-- Another store gives the answer of this one, if the look asks for one. -/
def Agrees (v v' : View) : Look → Prop
  | .call .isFile path => v'.isFile path = v.isFile path
  | .call .read path => v'.read path = v.read path
  | .call .write _ | .call .makeDirectory _ | .tell _ => True

instance (v v' : View) : DecidablePred (v.Agrees v')
  | .call .isFile path => inferInstanceAs (Decidable (v'.isFile path = v.isFile path))
  | .call .read path => inferInstanceAs (Decidable (v'.read path = v.read path))
  | .call .write _ | .call .makeDirectory _ | .tell _ => inferInstanceAs (Decidable True)

variable {v v' : View} {transform : Transformer} {locator : Locator}

/-! ### Looking for files -/

theorem probes_congr {paths : List String} (h : ∀ look ∈ v.probes paths, v.Agrees v' look) :
    paths.find? v'.isFile = paths.find? v.isFile ∧ v'.probes paths = v.probes paths := by
  induction paths with
  | nil => exact ⟨rfl, rfl⟩
  | cons path paths ih =>
    rw [probes] at h
    have hpath : v'.isFile path = v.isFile path := h _ (.head _)
    rw [List.find?_cons, List.find?_cons, probes, probes, hpath]
    cases hfile : v.isFile path with
    | true => exact ⟨rfl, rfl⟩
    | false =>
      rw [hfile] at h
      obtain ⟨hfind, hprobes⟩ := ih fun look hlook => h look (.tail _ hlook)
      exact ⟨hfind, congrArg _ hprobes⟩

theorem target_congr {id specifier : String}
    (h : ∀ look ∈ v.targetLooks locator id specifier, v.Agrees v' look) :
    v'.target locator id specifier = v.target locator id specifier ∧
      v'.targetLooks locator id specifier = v.targetLooks locator id specifier := by
  unfold target targetLooks at *
  cases hresolve : Specifier.resolve id specifier with
  | error => exact ⟨rfl, rfl⟩
  | ok path =>
    rw [hresolve] at h
    obtain ⟨hfind, hprobes⟩ := probes_congr h
    simp only [locate, hfind, hprobes]
    exact ⟨trivial, trivial⟩

theorem targets_congr {id : String} {specifiers : List String}
    (h : ∀ look ∈ v.targetsLooks locator id specifiers, v.Agrees v' look) :
    v'.targets locator id specifiers = v.targets locator id specifiers ∧
      v'.targetsLooks locator id specifiers = v.targetsLooks locator id specifiers := by
  induction specifiers with
  | nil => exact ⟨rfl, rfl⟩
  | cons specifier specifiers ih =>
    rw [targetsLooks] at h
    obtain ⟨hfirst, hmore⟩ := List.forall_mem_append.1 h
    obtain ⟨htarget, hlooks⟩ := target_congr hfirst
    rw [targets_cons, targets_cons, targetsLooks, targetsLooks, htarget, hlooks]
    cases hspecifier : v.target locator id specifier with
    | error => exact ⟨rfl, rfl⟩
    | ok target =>
      rw [hspecifier] at hmore
      obtain ⟨hrest, hrestLooks⟩ := ih (List.forall_mem_cons.1 hmore).2
      rw [hrest]
      dsimp only
      rw [hrestLooks]
      exact ⟨rfl, rfl⟩

/-! ### Visits -/

theorem visit_congr {id : String}
    (h : ∀ look ∈ v.visitLooks transform locator id, v.Agrees v' look) :
    v'.visit transform locator id = v.visit transform locator id ∧
      v'.visitLooks transform locator id = v.visitLooks transform locator id := by
  have hread : v'.read id = v.read id := h (.call .read id) (.tail _ (.head _))
  cases hsource : v.read id with
  | error fault => simp only [visit, visitLooks, hread, hsource, and_self]
  | ok source =>
    cases hlowered : transform id source with
    | error error => simp only [visit, visitLooks, hread, hsource, hlowered, and_self]
    | ok lowered =>
      simp only [visitLooks, hsource, hlowered] at h
      have h := (List.forall_mem_cons.1 (List.forall_mem_cons.1 h).2).2
      obtain ⟨htargets, hlooks⟩ := targets_congr (List.forall_mem_append.1 h).2
      simp only [visit, visitLooks, hread, hsource, hlowered, htargets, hlooks, and_self]

/-! ### Searches -/

/-- A search does in one store what it does in another that answers alike. -/
theorem Searches.congr {now : Search} {result : Except Error Graph} {looks : List Look}
    (h : v.Searches transform locator now result looks) (ha : ∀ look ∈ looks, v.Agrees v' look) :
    v'.Searches transform locator now result looks := by
  induction h with
  | done hq => exact .done hq
  | fail hq hv =>
    obtain ⟨hvisit, hlooks⟩ := visit_congr ha
    exact hlooks ▸ .fail hq (hvisit.trans hv)
  | visit hq hv _ ih =>
    obtain ⟨hfirst, hmore⟩ := List.forall_mem_append.1 ha
    obtain ⟨hvisit, hlooks⟩ := visit_congr hfirst
    exact hlooks ▸ .visit hq (hvisit.trans hv) (ih hmore)

/-- A search that ends in another store, which answers alike all along, ends in this one. -/
theorem Searches.of_agrees {now : Search} {result : Except Error Graph} {looks : List Look}
    (h : v'.Searches transform locator now result looks)
    (ha : ∀ later id queue, Relation.ReflTransGen (Search.Step v transform locator) now later →
      later.queue = id :: queue → ∀ look ∈ v.visitLooks transform locator id, v.Agrees v' look) :
    v.Searches transform locator now result looks := by
  induction h with
  | done hq => exact .done hq
  | fail hq hv =>
    obtain ⟨hvisit, hlooks⟩ := visit_congr (ha _ _ _ .refl hq)
    exact hlooks ▸ .fail hq (hvisit.symm.trans hv)
  | visit hq hv _ ih =>
    obtain ⟨hvisit, hlooks⟩ := visit_congr (ha _ _ _ .refl hq)
    have hv := hvisit.symm.trans hv
    exact hlooks ▸ .visit hq hv (ih fun later id queue hsteps =>
      ha later id queue (.head (.visit hq hv) hsteps))

/-! ### From an entry on -/

variable (v transform locator) in
/-- A look that is made in search of the graph of an entry: for the file of the entry, or during the
    visit to a module that waits at some time. -/
inductive Makes (path : String) (look : Look) : Prop
  | entry (h : look ∈ v.probes (locator.candidates (Path.canonical path)))
  | visit {entry id : String} {now : Search} {queue : List String}
    (hentry : v.locate locator (Path.canonical path) = some entry)
    (hsteps : Relation.ReflTransGen (Search.Step v transform locator) (Search.start entry) now)
    (hq : now.queue = id :: queue) (h : look ∈ v.visitLooks transform locator id)

/-- The file of the entry is found as in another store that answers alike. -/
theorem locate_congr {path : String}
    (h : ∀ look ∈ v.probes (locator.candidates (Path.canonical path)), v.Agrees v' look)
    (looks : List Look) :
    v'.locate locator (Path.canonical path) = v.locate locator (Path.canonical path) ∧
      v'.discoverLooks locator path looks = v.discoverLooks locator path looks := by
  obtain ⟨hfind, hprobes⟩ := probes_congr h
  rw [discoverLooks, discoverLooks, hprobes]
  exact ⟨hfind, rfl⟩

theorem Discovers.congr {path : String} {result : Except Error Graph} {looks : List Look}
    (h : v.Discovers transform locator path result looks) (ha : ∀ look ∈ looks, v.Agrees v' look) :
    v'.Discovers transform locator path result looks := by
  cases h with
  | noEntry hentry =>
    obtain ⟨hprobes, -⟩ := List.forall_mem_append.1
      (List.forall_mem_append.1 (List.forall_mem_cons.1 ha).2).1
    obtain ⟨hlocate, hlooks⟩ := locate_congr hprobes []
    exact hlooks ▸ .noEntry (hlocate.trans hentry)
  | found hentry h =>
    -- What is asked and told between the start and the end.
    obtain ⟨hprobes, hsearch⟩ := List.forall_mem_append.1
      (List.forall_mem_append.1 (List.forall_mem_cons.1 ha).2).1
    obtain ⟨hlocate, hlooks⟩ := locate_congr hprobes _
    exact hlooks ▸ .found (hlocate.trans hentry) (h.congr (List.forall_mem_append.1 hsearch).1)

theorem Discovers.of_agrees {path : String} {result : Except Error Graph} {looks : List Look}
    (h : v'.Discovers transform locator path result looks)
    (ha : ∀ look, v.Makes transform locator path look → v.Agrees v' look) :
    v.Discovers transform locator path result looks := by
  have hprobes : ∀ look ∈ v.probes (locator.candidates (Path.canonical path)), v.Agrees v' look :=
    fun look hlook => ha look (.entry hlook)
  cases h with
  | noEntry hentry =>
    obtain ⟨hlocate, hlooks⟩ := locate_congr hprobes []
    exact hlooks ▸ .noEntry (hlocate.symm.trans hentry)
  | found hentry h =>
    obtain ⟨hlocate, hlooks⟩ := locate_congr hprobes _
    have hentry := hlocate.symm.trans hentry
    exact hlooks ▸ .found hentry (h.of_agrees fun later id queue hsteps hq look hlook =>
      ha look (.visit hentry hsteps hq hlook))

end View

/-- A search for the graph of an entry in one store, and another store that gives the same answers
    to all that the search asks: there the search does the same and comes to the same end, and if it
    comes to none in the one store it comes to none in the other. -/
theorem discover_congr (transform : Transformer) (locator : Locator) (path : String) (v v' : View) :
    (∀ result watched,
      (discover transform.told locator path : Run Watched (Except Error Graph)) (.start v) =
        some (result, watched) →
      (∀ look ∈ watched.looks, v.Agrees v' look) →
      (discover transform.told locator path : Run Watched (Except Error Graph)) (.start v') =
        some (result, { view := v', looks := watched.looks })) ∧
    ((discover transform.told locator path : Run Watched (Except Error Graph)) (.start v) = none →
      (∀ look, v.Makes transform locator path look → v.Agrees v' look) →
      (discover transform.told locator path : Run Watched (Except Error Graph)) (.start v') =
        none) := by
  constructor
  · intro result watched hran hagrees
    have hdiscovers := (discover_watched_iff.1 hran).1
    exact discover_watched_iff.2 ⟨hdiscovers.congr hagrees, rfl⟩
  · intro hendless hagrees
    refine Option.eq_none_iff_forall_ne_some.2 fun ended hended => ?_
    have hdiscovers := (discover_watched_iff.1 hended).1
    have hran := runs_discover (σ := Watched) (hdiscovers.of_agrees hagrees) (.start v) rfl
    cases hendless.symm.trans hran

/-- The files of `crossing`, and two more, one of them in a place that is tried later. -/
def crowded : Memory where
  files := crossing.files ++ [("b/index.js", "a"), ("d.js", "")]
  refusedReads := ["d.js"]
  refusedWrites := []
  refusedDirectories := []
  journal := []

theorem discover_crowded_congr :
    ∃ graph watched,
      (discover lettered.told ⟨[".js"]⟩ "a" : Run Watched (Except Error Graph))
        (.start (View.of crossing)) = some (.ok graph, watched) ∧
      graph.ids = ["a.js", "b.js", "c.js"] ∧
      (∀ look ∈ watched.looks, (View.of crossing).Agrees (View.of crowded) look) ∧
      (discover lettered.told ⟨[".js"]⟩ "a" : Run Watched (Except Error Graph))
          (.start (View.of crowded)) =
        some (.ok graph, { view := View.of crowded, looks := watched.looks }) := by
  have within : ((View.of crossing).discoverWithin lettered ⟨[".js"]⟩ 3 "a").bind
      (fun ended => ended.1.toOption.map fun graph => (graph.ids,
        ended.2.all fun look => decide ((View.of crossing).Agrees (View.of crowded) look))) =
      some (["a.js", "b.js", "c.js"], true) := by
    decide +kernel
  obtain ⟨⟨error | graph, looks⟩, hwithin, hshown⟩ := Option.bind_eq_some_iff.1 within
  · cases hshown
  · obtain ⟨hids, hall⟩ := Prod.mk.inj (Option.some.inj hshown)
    have hagrees : ∀ look ∈ looks, (View.of crossing).Agrees (View.of crowded) look :=
      fun look hlook => of_decide_eq_true (List.all_eq_true.1 hall look hlook)
    have hran : (discover lettered.told ⟨[".js"]⟩ "a" : Run Watched (Except Error Graph))
        (.start (View.of crossing)) = some (.ok graph, { view := View.of crossing, looks }) :=
      discover_watched_iff.2 ⟨View.discovers_of_discoverWithin hwithin, rfl⟩
    exact ⟨graph, _, hran, hids, hagrees,
      (discover_congr lettered _ "a" _ _).1 _ _ hran hagrees⟩

end Bundler

import Bundler.Proofs.Graph.Endless
import Bundler.Proofs.Graph.Fault

/-!
# Why an entry has no graph

A search fails if its entry leads to no file, or if it comes to a module that cannot be visited.
Of such modules the first in breadth-first order decides the error, and nothing behind it is
read.

* `Look.reads`: the files that are read;
* `View.Failure`: why an entry has no graph, and what is read until that is known;
* `View.Searches.stop`: where a search stops;
* `discover_eq_error`: an entry has no graph for just these reasons.
-/

namespace Bundler

/-- The files that are read, in order. -/
def Look.reads (looks : List Look) : List String :=
  looks.filterMap fun look =>
    match look with
    | .call .read path => some path
    | _ => none

namespace Look

theorem reads_append (looks more : List Look) : reads (looks ++ more) = reads looks ++ reads more :=
  List.filterMap_append

theorem reads_nil : reads [] = [] := rfl

theorem reads_tell (event : Event) (looks : List Look) :
    reads (.tell event :: looks) = reads looks := rfl

theorem reads_isFile (path : String) (looks : List Look) :
    reads (.call .isFile path :: looks) = reads looks := rfl

theorem reads_read (path : String) (looks : List Look) :
    reads (.call .read path :: looks) = path :: reads looks := rfl

end Look

namespace View

open Look

section

variable (v : View) (transform : Transformer) (locator : Locator)

theorem reads_probes (paths : List String) : reads (v.probes paths) = [] := by
  induction paths with
  | nil => rfl
  | cons path paths ih =>
    rw [probes, reads_isFile]
    split
    · rfl
    · exact ih

theorem reads_targetsLooks (id : String) (specifiers : List String) :
    reads (v.targetsLooks locator id specifiers) = [] := by
  induction specifiers with
  | nil => rfl
  | cons specifier specifiers ih =>
    have htarget : reads (v.targetLooks locator id specifier) = [] := by
      unfold targetLooks
      split
      · rfl
      · exact reads_probes v _
    rw [targetsLooks, reads_append, htarget]
    split
    · rfl
    · rw [reads_tell, ih]
      rfl

/-- A visit reads the module and nothing else. -/
theorem reads_visitLooks (id : String) : reads (v.visitLooks transform locator id) = [id] := by
  rw [visitLooks, reads_tell, reads_read]
  split
  · rfl
  · rw [reads_append, reads_tell, reads_tell]
    split
    · rfl
    · rw [reads_targetsLooks]
      rfl

/-- Why an entry has no graph, and what is read until that is known. -/
inductive Failure (path : String) : Error → List String → Prop where
  /-- No file answers to the entry. -/
  | noEntry (hentry : v.locate locator (Path.canonical path) = none) :
    Failure path (.entryNotFound path) []
  /-- A module cannot be visited, and those before it in breadth-first order can be. -/
  | module {entry bad : String} {steps : Nat} {before after : List String} {error : Error}
    (hentry : v.locate locator (Path.canonical path) = some entry)
    (horder : v.within transform locator entry steps = before ++ bad :: after)
    (hbefore : ∀ id ∈ before, ∀ error, ¬v.Fault transform locator id error)
    (hbad : v.Fault transform locator bad error) :
    Failure path error (before ++ [bad])

end

variable {v : View} {transform : Transformer} {locator : Locator}

/-- A module that was visited has no fault. -/
theorem not_fault_of_visit {id : String} {found : String × List (String × String)}
    (h : v.visit transform locator id = .ok found) (error : Error) :
    ¬v.Fault transform locator id error := by
  intro hfault
  cases h.symm.trans (visit_eq_error_iff.2 hfault)

/-- A search that fails comes to a module that cannot be visited. It has read that one and those
    visited before. -/
theorem Searches.stop {entry : String} {now : Search} {error : Error} {looks : List Look}
    (h : v.Searches transform locator now (.error error) looks)
    (hs : Search.Sound v transform locator entry now) :
    ∃ last id queue, Relation.ReflTransGen (Search.Step v transform locator) now last ∧
      last.queue = id :: queue ∧ v.visit transform locator id = .error error ∧
      now.graph.ids ++ reads looks = last.graph.ids ++ [id] := by
  generalize hresult : Except.error error = result at h
  induction h with
  | done => cases hresult
  | @fail now id queue _ hq hv =>
    cases hresult
    refine ⟨now, id, queue, .refl, hq, hv, ?_⟩
    rw [reads_visitLooks]
  | visit hq hv _ ih =>
    have hstep := Search.Step.visit hq hv
    obtain ⟨last, bad, rest, hsteps, hlast, hbad, hreads⟩ := ih (hs.step hstep) hresult
    refine ⟨last, bad, rest, .head hstep hsteps, hlast, hbad, ?_⟩
    -- The module that was just visited moves from what is read to the graph.
    rw [hs.ids_visited hq] at hreads
    rw [reads_append, reads_visitLooks, ← List.append_assoc]
    exact hreads

theorem reads_discoverLooks (path : String) (looks : List Look) :
    reads (v.discoverLooks locator path looks) = reads looks := by
  rw [discoverLooks, reads_append, reads_tell, reads_append, reads_probes, reads_tell, reads_nil,
    List.nil_append, List.append_nil]

theorem reads_closing (result : Except Error Graph) : reads (closing result) = [] := by
  cases result with
  | ok => rfl
  | error => rfl

/-- Looking for a graph fails for a reason, and reads what that takes. -/
theorem Discovers.failure {path : String} {error : Error} {looks : List Look}
    (h : v.Discovers transform locator path (.error error) looks) :
    v.Failure transform locator path error (reads looks) := by
  generalize hresult : Except.error error = result at h
  cases h with
  | noEntry hentry =>
    cases hresult
    rw [reads_discoverLooks]
    exact .noEntry hentry
  | @found entry _ looks hentry h =>
    subst hresult
    obtain ⟨last, bad, queue, hsteps, hq, hbad, hreads⟩ := h.stop Search.Sound.start
    have hs := Search.Sound.start.run hsteps
    have ho := Search.InOrder.start.run .start hsteps
    -- What was seen are the visited modules, the one at fault, and those that wait behind it.
    obtain ⟨steps, after, hlisted⟩ := ho.listed
    rw [hs.seen_eq, hq, List.append_assoc] at hlisted
    have hfailure := Failure.module hentry hlisted.symm (fun other hother => by
      obtain ⟨found, hfound⟩ := ho.visited other hother
      exact not_fault_of_visit hfound) (visit_eq_error_iff.1 hbad)
    have hstart : (Search.start entry).graph.ids = [] := rfl
    rw [hstart, List.nil_append] at hreads
    rw [reads_discoverLooks, reads_append, reads_closing, hreads, List.append_nil]
    exact hfailure

/-- All that can be reached from an entry that has a graph can be visited. -/
theorem Discovers.exists_visit {path entry id : String} {graph : Graph} {looks : List Look}
    (h : v.Discovers transform locator path (.ok graph) looks)
    (hentry : v.locate locator (Path.canonical path) = some entry)
    (hreach : Relation.ReflTransGen (v.Leads transform locator) entry id) :
    ∃ found, v.visit transform locator id = .ok found := by
  obtain ⟨other, last, hother, hsteps, hq, -⟩ := h.steps
  obtain rfl := Option.some.inj (hother.symm.trans hentry)
  -- A search that ends has visited all that can be reached.
  have hs := Search.Sound.start.run hsteps
  have hid : id ∈ last.graph.ids :=
    (hs.mem_ids_iff hq id).2 (Relation.ReflTransGen.mono (fun _ _ => Leads.requires) _ _ hreach)
  exact (Search.InOrder.start.run .start hsteps).visited id hid

/-- If the path of an entry leads to no file, or if a module that can be reached cannot be visited,
    then looking for a graph ends, and fails. -/
theorem exists_discovers_error {path : String}
    (h : v.locate locator (Path.canonical path) = none ∨
      ∃ entry bad error, v.locate locator (Path.canonical path) = some entry ∧
        Relation.ReflTransGen (v.Leads transform locator) entry bad ∧
        v.Fault transform locator bad error) :
    ∃ error looks, v.Discovers transform locator path (.error error) looks := by
  rcases h with hnone | ⟨entry, bad, error, hentry, hreach, hbad⟩
  · exact ⟨_, _, .noEntry hnone⟩
  by_cases hends : (Search.start entry).Endless v transform locator
  · obtain ⟨found, hfound⟩ := hends.exists_visit hreach
    exact absurd hbad (not_fault_of_visit hfound error)
  · obtain ⟨result, hends⟩ := not_forall.1 hends
    obtain ⟨looks, hsearches⟩ := not_forall_not.1 hends
    cases result with
    | error error => exact ⟨error, _, .found hentry hsearches⟩
    | ok graph =>
      have hdiscovers : v.Discovers transform locator path (.ok graph) _ := .found hentry hsearches
      obtain ⟨found, hfound⟩ := hdiscovers.exists_visit hentry hreach
      exact absurd hbad (not_fault_of_visit hfound error)

end View

section

variable {σ : Type} [FileStore (StateM σ)] [Reporter (StateM σ)] [Steady σ]

/-- Looking for the graph of an entry fails just if the entry leads to no file, or if a module that
    can be reached from it through modules that can be visited cannot be visited itself. Then the
    error is that of the first such module in breadth-first order, and the last module that is read
    is that one. -/
theorem discover_eq_error (transform : Transformer) (locator : Locator) (path : String) (s : σ) :
    ((∃ error s', (discover transform.told locator path : Run σ (Except Error Graph)) s =
        some (.error error, s')) ↔
      (View.of s).locate locator (Path.canonical path) = none ∨
      ∃ entry bad error, (View.of s).locate locator (Path.canonical path) = some entry ∧
        Relation.ReflTransGen ((View.of s).Leads transform locator) entry bad ∧
        (View.of s).Fault transform locator bad error) ∧
    (∀ error s', (discover transform.told locator path : Run σ (Except Error Graph)) s =
        some (.error error, s') →
      ∃ looks, s' = looks.foldl Steady.after s ∧
        (View.of s).Failure transform locator path error (Look.reads looks)) ∧
    ∀ reason, (ModuleFault.unreadable reason).message = "cannot read module: " ++ reason := by
  have hfailure : ∀ error s', (discover transform.told locator path : Run σ (Except Error Graph)) s =
      some (.error error, s') → ∃ looks, s' = looks.foldl Steady.after s ∧
        (View.of s).Failure transform locator path error (Look.reads looks) := by
    intro error s' h
    obtain ⟨looks, hdiscovers, hlast⟩ := discover_eq_some_iff.1 h
    exact ⟨looks, hlast, hdiscovers.failure⟩
  refine ⟨⟨?_, ?_⟩, hfailure, fun _ => rfl⟩
  · rintro ⟨error, s', h⟩
    obtain ⟨looks, -, hfailure⟩ := hfailure error s' h
    -- Which files were read does not matter for that.
    generalize Look.reads looks = files at hfailure
    cases hfailure with
    | noEntry hentry => exact .inl hentry
    | module hentry horder hbefore hbad =>
      have hmem := horder ▸ List.mem_append_right _ List.mem_cons_self
      exact .inr ⟨_, _, _, hentry, View.exists_mem_within_iff.1 ⟨_, hmem⟩, hbad⟩
  · intro h
    obtain ⟨error, looks, hdiscovers⟩ := View.exists_discovers_error h
    exact ⟨error, _, runs_discover hdiscovers s rfl⟩

end

/-- Three files: the first names the two others, of which one names a file that is not there,
    and the other cannot be read. -/
def broken : Memory where
  files := [("a.js", "bc"), ("b.js", "x"), ("c.js", "")]
  refusedReads := ["c.js"]
  refusedWrites := []
  refusedDirectories := []
  journal := []

theorem discover_broken_eq_error :
    ∃ memory looks,
      (discover lettered.told ⟨[".js"]⟩ "a" : Run Memory (Except Error Graph)) broken =
        some (.error (.unresolved "./x" "b.js" (.noSuchFile "x")), memory) ∧
      memory = looks.foldl Steady.after broken ∧
      (View.of broken).Failure lettered ⟨[".js"]⟩ "a"
        (.unresolved "./x" "b.js" (.noSuchFile "x")) (Look.reads looks) := by
  have within : ((View.of broken).discoverWithin lettered ⟨[".js"]⟩ 2 "a").map
      (·.1.map Graph.ids) = some (.error (.unresolved "./x" "b.js" (.noSuchFile "x"))) := by
    decide +kernel
  obtain ⟨_, hdiscovers⟩ := View.exists_discovers_of_fails within
  have h := runs_discover hdiscovers broken rfl
  obtain ⟨looks, hlooks, hfailure⟩ := (discover_eq_error lettered ⟨[".js"]⟩ "a" broken).2.1 _ _ h
  exact ⟨_, looks, h, hlooks, hfailure⟩

end Bundler

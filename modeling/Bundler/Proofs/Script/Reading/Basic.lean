import Bundler.Proofs.Script.Idents
import Bundler.Proofs.Script.Tokens
import Bundler.Script.Parser.Basic
import Mathlib

/-!
# Where a reader stands

A reader goes forward: the token at which it stands starts where the token before has ended,
or further on. So what a reader gives stands between the token at which it started and
the end of the last token that it took, and it starts and ends between two characters of the text.
What a reader does when it stops at an issue does not matter here.

* `Row`: names one after another, each between two characters of the text;
* `Reads`: what a reader gives that starts in a state, and where it stands then;
* `Spans`: a part of a script that was read from one state to another;
* `repeated_reads`: what a loop keeps;
* `gathered_reads`: what a loop gathers.
-/

namespace Bundler.Script

/-! ### Rows -/

/-- The text that a reader reads. -/
class Whole where
  /-- Its characters. -/
  text : List Char

/-- An offset that falls into no character of the text. -/
def IsMark [Whole] (offset : Nat) : Prop :=
  Text.Mark Whole.text offset

/-- Names that stand one after another, each between two characters of the text. -/
structure Row [Whole] (lo : Nat) (ids : List Ident) (hi : Nat) : Prop extends
    Chain lo ids hi where
  /-- A name starts and ends between two characters. -/
  marked : ∀ id ∈ ids, IsMark id.span.start ∧ IsMark id.span.stop

/-- Names that end before others start. -/
def Before (ids more : List Ident) : Prop :=
  ∀ one ∈ ids, ∀ other ∈ more, one.span.stop ≤ other.span.start

@[grind =] theorem before_nil_left (ids : List Ident) : Before [] ids ↔ True := by
  simp [Before]

@[grind =] theorem before_nil_right (ids : List Ident) : Before ids [] ↔ True := by
  simp [Before]

@[grind =] theorem before_append_left (ids more others : List Ident) :
    Before (ids ++ more) others ↔ Before ids others ∧ Before more others := by
  simp only [Before, List.mem_append]
  grind -linarith

@[grind =] theorem before_append_right (ids more others : List Ident) :
    Before ids (more ++ others) ↔ Before ids more ∧ Before ids others := by
  simp only [Before, List.mem_append]
  grind -linarith

namespace Row

variable [Whole] {lo lo' hi hi' mid mid' : Nat} {ids more : List Ident}

theorem nil (lo hi : Nat) : Row lo [] hi :=
  ⟨.nil lo hi, nofun⟩

theorem singleton {id : Ident} (hlo : lo ≤ id.span.start) (h : id.span.start < id.span.stop)
    (hhi : id.span.stop ≤ hi) (hstart : IsMark id.span.start) (hstop : IsMark id.span.stop) :
    Row lo [id] hi := by
  refine ⟨.singleton hlo h hhi, fun other hother => ?_⟩
  obtain rfl := List.mem_singleton.1 hother
  exact ⟨hstart, hstop⟩

theorem weaken (h : Row lo ids hi) (hlo : lo' ≤ lo) (hhi : hi ≤ hi') : Row lo' ids hi' :=
  ⟨h.toChain.weaken hlo hhi, h.marked⟩

/-- Names that end before others start, and those. -/
theorem append (h : Row lo ids mid) (hm : Row mid' more hi) (hmid : mid ≤ mid') (hlo : lo ≤ mid')
    (hhi : mid ≤ hi) : Row lo (ids ++ more) hi :=
  ⟨h.toChain.append hm.toChain hmid hlo hhi, fun id hid =>
    (List.mem_append.1 hid).elim (h.marked id) (hm.marked id)⟩

theorem sublist (h : Row lo ids hi) (hs : more.Sublist ids) : Row lo more hi :=
  ⟨h.toChain.sublist hs, fun id hid => h.marked id (hs.subset hid)⟩

@[grind =] theorem nil_iff (lo hi : Nat) : Row lo [] hi ↔ True :=
  iff_true_intro (nil lo hi)

@[grind =] theorem append_iff :
    Row lo (ids ++ more) hi ↔ Row lo ids hi ∧ Row lo more hi ∧ Before ids more := by
  constructor
  · intro h
    refine ⟨h.sublist (List.sublist_append_left _ _), h.sublist (List.sublist_append_right _ _), ?_⟩
    intro one ho other hother
    exact (List.pairwise_append.1 h.ordered).2.2 one ho other hother
  · rintro ⟨h, hm, hb⟩
    refine ⟨⟨?_, ?_, List.pairwise_append.2 ⟨h.ordered, hm.ordered, hb⟩⟩, ?_⟩
    · intro id hid
      exact (List.mem_append.1 hid).elim (h.bounds id) (hm.bounds id)
    · intro id hid
      exact (List.mem_append.1 hid).elim (h.filled id) (hm.filled id)
    · intro id hid
      exact (List.mem_append.1 hid).elim (h.marked id) (hm.marked id)

theorem before (h : Row lo ids mid) (hm : Row mid' more hi) (hmid : mid ≤ mid') :
    Before ids more := fun one ho other hother =>
  Nat.le_trans (h.bounds one ho).2 (Nat.le_trans hmid (hm.bounds other hother).1)

/-- A name that ends where others may start at the earliest. -/
theorem before_of_le {id : Ident} (h : Row mid more hi) (hid : id.span.stop ≤ mid) :
    Before [id] more := fun one ho other hother => by
  obtain rfl := List.mem_singleton.1 ho
  exact Nat.le_trans hid (h.bounds other hother).1

grind_pattern Row.before => Row lo ids mid, Row mid' more hi, Before ids more
grind_pattern Row.before_of_le => Row mid more hi, Before [id] more
grind_pattern Row.weaken => Row lo ids hi, Row lo' ids hi'
grind_pattern Row.singleton => Row lo [id] hi

end Row

namespace Parser

variable [Whole]

/-- What is left of the text for a reader. -/
structure State.Left (state : State) : Prop where
  /-- It starts with the token. -/
  starts : Text.Goes 0 Whole.text state.token.span.start state.token.source
  /-- The lexer goes on behind the token. -/
  stops : Text.Goes state.token.span.start state.token.source state.token.span.stop
    state.lexer.rest
  /-- A punctuator takes something. -/
  punct_lt : ∀ p, state.token.kind = .punct p → state.token.span.start < state.token.span.stop
  /-- The token before ends between two characters. -/
  stop_mark : IsMark state.stop

/-- A reader stands at a token that starts where the token before has ended, or further on. -/
structure State.Placed (state : State) : Prop where
  /-- The token starts after the one before. -/
  stop_le : state.stop ≤ state.token.span.start
  /-- The token stands somewhere. -/
  token : state.token.Placed
  /-- The lexer goes on after the token. -/
  offset_eq : state.lexer.offset = state.token.span.stop
  /-- It is left with what stands from the token on. -/
  left : state.Left

/-- A state that a reader comes to from another one. -/
structure State.Follows (now state : State) : Prop where
  /-- The reader stands at a token. -/
  placed : now.Placed
  /-- It has not gone back. -/
  start_le : state.token.span.start ≤ now.token.span.start
  /-- It has not given a token back. -/
  stop_le : state.stop ≤ now.stop

attribute [grind cases] State.Follows State.Placed Token.Placed

namespace State.Left

variable {state : State}

theorem mark_start (h : state.Left) : IsMark state.token.span.start :=
  ⟨_, h.starts⟩

theorem mark_stop (h : state.Left) : IsMark state.token.span.stop :=
  ⟨_, h.starts.trans h.stops⟩

grind_pattern mark_start => IsMark state.token.span.start, state.Left
grind_pattern mark_stop => IsMark state.token.span.stop, state.Left
grind_pattern stop_mark => IsMark state.stop, state.Left

end State.Left

open Std.Do

/-- What a reader that starts in a state gives, if it does not stop at an issue, and the
    state that it comes to. -/
abbrev Reads {α : Type} (read : ParserM α) (state : State) (post : α → State → Prop) : Prop :=
  ⦃fun _ now => ⌜now = state ∧ state.Placed⌝⦄
  read
  ⦃post⟨fun a _ now => ⌜now.Follows state ∧ post a now⌝, fun _ _ => ⌜True⌝⟩⦄

set_option mvcgen.warning false

variable {state : State}

omit [Whole] in
theorem wp_eq {α : Type} (read : ParserM α)
    (post : PostCond α (.arg Context (.except Unit (.arg State .pure)))) (context : Context)
    (state : State) :
    wp⟦read⟧ post context state =
      match read context state with
      | .ok a now => post.1 a context now
      | .error e now => post.2.1 e now := by
  simp only [wp, PredTrans.apply_pushArg, PredTrans.apply_Functor_map]
  simp only [PredTrans.apply]
  have : (ReaderT.run read context).run state = read context state := rfl
  rw [this]
  cases read context state <;> rfl

omit [Whole] in
/-- What two readers one after another give. -/
theorem bind_eq_ok {α β : Type} {read : ParserM α} {next : α → ParserM β} {context : Context}
    {now final : State} {b : β} (h : (read >>= next) context now = .ok b final) :
    ∃ a after, read context now = .ok a after ∧ next a context after = .ok b final := by
  simp only [bind, ReaderT.bind, EStateM.bind] at h
  split at h
  next a after hr => exact ⟨a, after, hr, h⟩
  next => cases h

/-- What a reader gives, in terms of its results. -/
theorem reads_iff {α : Type} {read : ParserM α} {post : α → State → Prop} :
    Reads read state post ↔ (state.Placed → ∀ context a now, read context state = .ok a now →
      now.Follows state ∧ post a now) := by
  constructor
  · intro h hp context a now hr
    have := h context state ⟨rfl, hp⟩
    rwa [wp_eq, hr] at this
  · rintro h context now ⟨rfl, hp⟩
    rw [wp_eq]
    cases hr : read context now with
    | ok a after => exact h hp context a after hr
    | error => trivial

theorem reads_mono {α : Type} {read : ParserM α} {post post' : α → State → Prop}
    (h : Reads read state post) (himp : ∀ a now, now.Follows state → post a now → post' a now) :
    Reads read state post' :=
  reads_iff.2 fun hp context a now hr =>
    have hnow := reads_iff.1 h hp context a now hr
    ⟨hnow.1, himp a now hnow.1 hnow.2⟩

/-- A reader may be taken to stand somewhere. -/
theorem reads_placed {α : Type} {read : ParserM α} {post : α → State → Prop} :
    Reads read state post ↔ (state.Placed → Reads read state post) :=
  ⟨fun h _ => h, fun h => reads_iff.2 fun hp => reads_iff.1 (h hp) hp⟩

/-- Shows what a reader gives by what follows from it, so that what its last step gives need not
    have the same form. -/
theorem reads_of {α : Type} {read : ParserM α} {post : α → State → Prop}
    (h : ∀ goal : α → State → Prop, (∀ a now, now.Follows state → post a now → goal a now) →
      ⦃fun _ now => ⌜now = state ∧ state.Placed⌝⦄
      read
      ⦃post⟨fun a _ now => ⌜goal a now⌝, fun _ _ => ⌜True⌝⟩⦄) : Reads read state post :=
  h (fun a now => now.Follows state ∧ post a now) fun _ _ => And.intro

theorem State.Follows.trans {now after : State} (h : now.Follows state) (ha : after.Follows now) :
    after.Follows state :=
  ⟨ha.placed, Nat.le_trans h.start_le ha.start_le, Nat.le_trans h.stop_le ha.stop_le⟩

theorem reads_bind {α β : Type} {read : ParserM α} {next : α → ParserM β}
    {mid : α → State → Prop} {post : β → State → Prop} (h : Reads read state mid)
    (hnext : ∀ a now, now.Follows state → mid a now → Reads (next a) now post) :
    Reads (read >>= next) state post := by
  rw [reads_iff]
  intro hp context b final hr
  obtain ⟨a, now, ha, hb⟩ := bind_eq_ok hr
  obtain ⟨hnow, hmid⟩ := reads_iff.1 h hp context a now ha
  obtain ⟨hfinal, hpost⟩ := reads_iff.1 (hnext a now hnow hmid) hnow.placed context b final hb
  exact ⟨hnow.trans hfinal, hpost⟩

theorem State.Placed.follows (h : state.Placed) : state.Follows state :=
  ⟨h, Nat.le_refl _, Nat.le_refl _⟩

grind_pattern State.Placed.follows => state.Follows state
grind_pattern State.Follows.trans => now.Follows state, after.Follows now

theorem pure_reads {α : Type} (a : α) :
    Reads (pure a) state fun found now => now = state ∧ found = a := by
  rw [reads_iff]
  intro hp context found now h
  obtain ⟨rfl, rfl⟩ := EStateM.Result.ok.inj h
  exact ⟨hp.follows, rfl, rfl⟩

@[spec] theorem read_reads : Reads read state fun _ now => now = state := by
  rw [reads_iff]
  intro hp context a now h
  obtain ⟨-, rfl⟩ := EStateM.Result.ok.inj h
  exact ⟨hp.follows, rfl⟩

@[spec] theorem token_reads :
    Reads token state fun found now => now = state ∧ found = state.token := by
  unfold token
  mvcgen
  all_goals grind -linarith

@[spec] theorem kind_reads :
    Reads kind state fun found now => now = state ∧ found = state.token.kind := by
  unfold kind
  mvcgen
  all_goals grind -linarith

@[spec] theorem here_reads :
    Reads here state fun found now => now = state ∧ found = state.token.span.start := by
  unfold here
  mvcgen
  all_goals grind -linarith

@[spec] theorem stopped_reads :
    Reads stopped state fun found now => now = state ∧ found = state.stop := by
  unfold stopped
  mvcgen
  all_goals grind -linarith

@[spec] theorem spanFrom_reads (start : Nat) :
    Reads (spanFrom start) state fun found now => now = state ∧ found = ⟨start, state.stop⟩ := by
  unfold spanFrom
  mvcgen
  all_goals grind -linarith

@[spec] theorem advance_reads :
    Reads advance state fun _ now => now.stop = state.token.span.stop := by
  rw [reads_iff]
  intro hp context a now h
  obtain ⟨-, rfl⟩ := EStateM.Result.ok.inj h
  have hg := Lexer.next_gives state.lexer
  have ho := hp.offset_eq
  have hl := hg.offset_le
  have ht := hp.token.start_le
  have hlexer := hp.left.starts.trans hp.left.stops
  rw [← ho] at hlexer
  refine ⟨⟨⟨?_, hg.placed, hg.stop_eq, hlexer.trans hg.starts, hg.stops,
    hg.punct_lt, hp.left.mark_stop⟩, ?_, ?_⟩,
    rfl⟩
  · show state.token.span.stop ≤ state.lexer.next.1.span.start
    omega
  · show state.token.span.start ≤ state.lexer.next.1.span.start
    omega
  · show state.stop ≤ state.token.span.stop
    exact Nat.le_trans hp.stop_le ht

/-- A change to what is noted leaves a reader where it stands. -/
theorem modify_reads {change : State → State} (hlexer : ∀ state, (change state).lexer = state.lexer)
    (htoken : ∀ state, (change state).token = state.token)
    (hstop : ∀ state, (change state).stop = state.stop) :
    Reads (modify change) state fun _ now => now.token = state.token ∧ now.stop = state.stop := by
  rw [reads_iff]
  intro hp context a now h
  obtain ⟨-, rfl⟩ := EStateM.Result.ok.inj h
  refine ⟨⟨⟨?_, ?_, ?_, ⟨?_, ?_, ?_, ?_⟩⟩, ?_, ?_⟩, htoken state, hstop state⟩
  · rw [htoken, hstop]
    exact hp.stop_le
  · rw [htoken]
    exact hp.token
  · rw [hlexer, htoken]
    exact hp.offset_eq
  · rw [htoken]
    exact hp.left.starts
  · rw [hlexer, htoken]
    exact hp.left.stops
  · rw [htoken]
    exact hp.left.punct_lt
  · rw [hstop]
    exact hp.left.stop_mark
  · rw [htoken]
  · rw [hstop]

@[spec] theorem note_reads (offset : Nat) (text : String) :
    Reads (note offset text) state fun _ now =>
      now.token = state.token ∧ now.stop = state.stop :=
  modify_reads (fun _ => rfl) (fun _ => rfl) (fun _ => rfl)

@[spec] theorem failAt_reads {α : Type} (offset : Nat) (text : String) :
    Reads (failAt offset text : ParserM α) state fun _ _ => False := by
  rw [reads_iff]
  intro hp context a now h
  cases h

@[spec] theorem unexpected_reads {α : Type} :
    Reads (unexpected : ParserM α) state fun _ _ => False := by
  unfold unexpected
  mvcgen
  all_goals grind -linarith

/-- A look ahead leaves a reader where it stands. -/
@[spec] theorem ahead_reads {α : Type} (look : ParserM α) :
    Reads (ahead look) state fun _ now => now = state := by
  rw [reads_iff]
  intro hp context a now h
  unfold ahead at h
  split at h
  all_goals
    obtain ⟨-, rfl⟩ := EStateM.Result.ok.inj h
    exact ⟨hp.follows, rfl⟩

@[spec] theorem at?_reads (p : Punct) :
    Reads (at? p) state fun found now =>
      now = state ∧ (found = true ↔ state.token.kind = .punct p) := by
  unfold at?
  mvcgen
  all_goals grind -linarith

/-- A punctuator that is gone past takes something. -/
theorem eat?_takes (p : Punct) :
    Reads (eat? p) state fun found now =>
      (found = true → state.token.span.stop ≤ now.stop ∧ state.token.span.start < now.stop) ∧
        (found = false → now = state) := by
  unfold eat?
  mvcgen
  all_goals grind -linarith [→ State.Left.punct_lt]

@[spec] theorem eat?_reads (p : Punct) :
    Reads (eat? p) state fun found now =>
      (found = true → state.token.span.stop ≤ now.stop) ∧ (found = false → now = state) :=
  reads_mono (eat?_takes p) fun _ _ _ h => ⟨fun hfound => (h.1 hfound).1, h.2⟩

@[spec] theorem expect_reads (p : Punct) :
    Reads (expect p) state fun _ now => state.token.span.stop ≤ now.stop := by
  unfold expect
  mvcgen
  all_goals grind -linarith

@[spec] theorem atWord?_reads (word : String) :
    Reads (atWord? word) state fun found now =>
      now = state ∧ (found = true → state.token.kind = .name word false) := by
  unfold atWord? Token.isWord
  mvcgen
  all_goals grind -linarith

@[spec] theorem eatWord?_reads (word : String) :
    Reads (eatWord? word) state fun found now =>
      (found = true →
          state.token.span.stop ≤ now.stop ∧ state.token.span.start < state.token.span.stop) ∧
        (found = false → now = state) := by
  unfold eatWord?
  mvcgen
  all_goals grind -linarith

@[spec] theorem expectWord_reads (word : String) :
    Reads (expectWord word) state fun _ now =>
      state.token.span.stop ≤ now.stop ∧ state.token.span.start < state.token.span.stop := by
  unfold expectWord
  mvcgen
  all_goals grind -linarith

@[spec] theorem second_reads : Reads second state fun _ now => now = state := by
  unfold second
  mvcgen
  all_goals grind -linarith

@[spec] theorem newline?_reads : Reads newline? state fun _ now => now = state := by
  unfold newline?
  mvcgen
  all_goals grind -linarith

@[spec] theorem mayEnd?_reads : Reads mayEnd? state fun _ now => now = state := by
  unfold mayEnd?
  mvcgen
  all_goals grind -linarith

@[spec] theorem semicolon_reads : Reads semicolon state fun _ _ => True := by
  unfold semicolon
  mvcgen
  all_goals grind -linarith

/-- A reader gives what it gives, whatever the context. -/
theorem within_reads {α : Type} {change : Context → Context} {read : ParserM α}
    {post : α → State → Prop} (h : Reads read state post) : Reads (within change read) state post :=
  reads_iff.2 fun hp context => reads_iff.1 h hp (change context)

theorem withIn_reads {α : Type} {read : ParserM α} {post : α → State → Prop}
    (h : Reads read state post) : Reads (withIn read) state post :=
  within_reads h

/-- What is checked one after another leaves a reader where it stands, if each check does. -/
theorem forIn_reads {α σ : Type} {check : α → σ → ParserM (ForInStep σ)}
    (h : ∀ a acc state, Reads (check a acc) state fun step now =>
      (∀ acc, step ≠ .done acc) ∧ now.token = state.token ∧ now.stop = state.stop)
    (checked : List α) (acc : σ) (state : State) :
    Reads (forIn checked acc check) state fun _ now =>
      now.token = state.token ∧ now.stop = state.stop := by
  induction checked generalizing acc state with
  | nil =>
    rw [List.forIn_nil]
    mvcgen
    all_goals grind -linarith
  | cons a more ih =>
    rw [List.forIn_cons, reads_iff]
    intro hp context acc final hr
    obtain ⟨step, now, hs, hr⟩ := bind_eq_ok hr
    obtain ⟨hnow, hstep, hstay⟩ := reads_iff.1 (h a _ state) hp context step now hs
    cases step with
    | done acc => exact absurd rfl (hstep acc)
    | yield acc =>
      have := reads_iff.1 (ih acc now) hnow.placed context _ final hr
      grind -linarith

theorem iterate_reads {σ α : Type} {step : σ → ParserM (σ ⊕ α)} {inv : σ → State → Prop}
    {post : α → State → Prop}
    (hstep : ∀ now acc, now.Follows state → inv acc now →
      Reads (step acc) now fun result after =>
        match result with
        | .inl acc => inv acc after
        | .inr a => post a after)
    (fuel : Nat) {now : State} (hn : now.Follows state) {acc : σ} (hi : inv acc now) :
    Reads (iterate step fuel acc) now post := by
  induction fuel generalizing now acc with
  | zero => exact reads_iff.2 fun hp context a final h =>
      (reads_iff.1 unexpected_reads hp context a final h).2.elim
  | succ fuel ih =>
    rw [reads_iff]
    intro hp context a final h
    obtain ⟨result, after, hs, h⟩ := bind_eq_ok h
    obtain ⟨hafter, hresult⟩ := reads_iff.1 (hstep now acc hn hi) hp context result after hs
    cases result with
    | inl acc' =>
      have := reads_iff.1 (ih (hn.trans hafter) hresult) hafter.placed context a final h
      exact ⟨hafter.trans this.1, this.2⟩
    | inr a' =>
      obtain ⟨rfl, rfl⟩ := EStateM.Result.ok.inj h
      exact ⟨hafter, hresult⟩

/-- What each step of a loop keeps holds when the loop ends. -/
theorem repeated_reads {σ α : Type} {step : σ → ParserM (σ ⊕ α)} {start : σ}
    (inv : σ → State → Prop) {post : α → State → Prop}
    (hstart : state.Placed → inv start state)
    (hstep : ∀ now acc, now.Follows state → inv acc now →
      Reads (step acc) now fun result after =>
        match result with
        | .inl acc => inv acc after
        | .inr a => post a after) : Reads (repeated step start) state post := by
  rw [reads_iff]
  intro hp context a now h
  have iterated := iterate_reads hstep (state.token.source.length + 2) hp.follows (hstart hp)
  exact reads_iff.1 iterated hp context a now h

/-- The nodes that a loop gathers, the last one first, stand one after another. -/
theorem gathered_reads {step : List Node → ParserM (List Node ⊕ List Node)}
    (hstep : ∀ now acc, now.Follows state →
      Row state.token.span.start (Node.identsOf acc.reverse) now.stop →
      Reads (step acc) now fun result after =>
        match result with
        | .inl acc => Row state.token.span.start (Node.identsOf acc.reverse) after.stop
        | .inr found => Row state.token.span.start (Node.identsOf found) after.stop) :
    Reads (repeated step []) state fun found now =>
      Row state.token.span.start (Node.identsOf found) now.stop := by
  refine repeated_reads (fun acc now =>
    Row state.token.span.start (Node.identsOf acc.reverse) now.stop) (fun _ => .nil _ _)
    fun now acc hn hi => ?_
  refine reads_mono (hstep now acc hn hi) ?_
  rintro (more | found) after - h
  · exact h
  · exact h

/-! ### Names -/

@[spec] theorem mayName?_reads (word : String) :
    Reads (mayName? word) state fun _ now => now = state := by
  unfold mayName?
  mvcgen
  all_goals grind -linarith

@[spec] theorem ident_reads : Reads ident state fun id now =>
    id.span = state.token.span ∧ now.stop = state.token.span.stop ∧
      state.token.span.start < state.token.span.stop := by
  unfold ident Token.name?
  mvcgen
  all_goals grind -linarith

@[spec] theorem anyName_reads : Reads anyName state fun id now =>
    id.span = state.token.span ∧ now.stop = state.token.span.stop ∧
      state.token.span.start < state.token.span.stop := by
  unfold anyName
  mvcgen
  all_goals grind -linarith

@[spec] theorem text_reads : Reads text state fun _ now =>
    now.stop = state.token.span.stop := by
  unfold text
  mvcgen
  all_goals grind -linarith

@[spec] theorem uncover_reads (span : Span) :
    Reads (uncover span) state fun _ now => now.token = state.token ∧ now.stop = state.stop :=
  modify_reads (fun _ => rfl) (fun _ => rfl) (fun _ => rfl)

/-! ### Parts -/

/-- A part of a script that was read from one state to another. -/
structure Spans (node : Node) (state now : State) : Prop where
  /-- Its names stand one after another. -/
  chain : Row state.token.span.start node.idents now.stop
  /-- It starts at the first token, or further on. -/
  start_le : state.token.span.start ≤ node.start
  /-- It ends before the next token. -/
  stop_le : node.span.stop ≤ now.token.span.start
  /-- It does not end before it starts. -/
  filled : node.start ≤ node.span.stop
  /-- The names of a function without a name stand in its parameters and its body. -/
  params : ∀ span shape paramsSpan params code,
    node = .func span shape none paramsSpan params code → shape.isArrow = false →
      node.start ≤ paramsSpan.start ∧ paramsSpan.start ≤ now.stop ∧ IsMark paramsSpan.start ∧
        Row paramsSpan.start node.idents now.stop

attribute [grind cases, grind intro] Spans

/-- Whether a part of the grammar starts where its reader does: a statement may have decorators
    before it. -/
@[grind] def Part.startsHere : Part → Bool
  | .statement _ => false
  | _ => true

/-- A reader that gives parts of the script it reads. -/
structure Reader.Keeps (reader : Reader) : Prop where
  /-- What it gives stands where it was read. -/
  reads : ∀ part state, Reads (reader part) state fun node now =>
    Spans node state now ∧ (part.startsHere = true →
        node.start = state.token.span.start ∧ state.token.span.start ≤ now.stop)

@[spec] theorem Reader.Keeps.within {reader : Reader} (h : reader.Keeps)
    (change : Context → Context) (part : Part) (state : State) :
    Reads (Parser.within change (reader part)) state fun node now =>
      Spans node state now ∧ (part.startsHere = true →
        node.start = state.token.span.start ∧ state.token.span.start ≤ now.stop) :=
  within_reads (h.reads part state)

@[spec] theorem Reader.Keeps.withIn {reader : Reader} (h : reader.Keeps) (part : Part)
    (state : State) : Reads (Parser.withIn (reader part)) state fun node now =>
      Spans node state now ∧ (part.startsHere = true →
        node.start = state.token.span.start ∧ state.token.span.start ≤ now.stop) :=
  withIn_reads (h.reads part state)

@[spec] theorem commaList_reads {close : Punct} {element : ParserM Node}
    (helement : ∀ state, Reads element state fun node now => Spans node state now) :
    Reads (commaList close element) state fun found now =>
      Row state.token.span.start (Node.identsOf found.1) now.stop := by
  unfold commaList
  apply repeated_reads fun acc now =>
    Row state.token.span.start (Node.identsOf acc.1.reverse) now.stop
  · intro _
    grind -linarith
  · intro now acc hn hi
    mvcgen [helement]
    all_goals grind -linarith

end Parser

end Bundler.Script

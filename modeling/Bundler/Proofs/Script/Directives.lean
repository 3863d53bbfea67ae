import Bundler.Proofs.Script.Alone

/-!
# Directives

The directives of a script are the strings that stand alone at its start, each with a semicolon or
before the end of a line. Their text can be read again whatever follows it, as long as that is no
part of the last one: a name in a line of its own ends them.

* `leadingDirectives`: the directives with which a text starts;
* `Program.leadingDirectives_of_read`: they are those of the script;
* `Opening`: the texts of directives;
* `exists_opening`: what holds directives is such a text;
* `directivesFrom_of_opening`: such a text holds directives;
* `Program.leadingDirectives_of_cut`: a module has the same directives if its text goes on otherwise
  behind them.
-/

namespace Bundler

/-- A stretch that stands further on. -/
def Span.later (span : Span) (n : Nat) : Span where
  start := span.start + n
  stop := span.stop + n

namespace Script

/-- A directive that stands further on. -/
def Directive.later (directive : Directive) (n : Nat) : Directive where
  span := directive.span.later n
  literal := directive.literal.later n
  inside := directive.inside

namespace Parser

variable {context : Context} {state now : State} {reader : Reader} {depth fuel : Nat}

/-! ### Directives one after another -/

/-- The directives that a reader finds one after another, a number of them at most. -/
def directivesFrom (reader : Reader) (context : Context) : Nat → State → List Directive
  | 0, _ => []
  | fuel + 1, state =>
    match reader (.statement false) context state with
    | .ok node now =>
      match directive? node with
      | some directive => directive :: directivesFrom reader context fuel now
      | none => []
    | .error _ _ => []

theorem directivesFrom_of_some {node : Node} {directive : Directive}
    (h : reader (.statement false) context state = .ok node now)
    (hdirective : directive? node = some directive) :
    directivesFrom reader context (fuel + 1) state =
      directive :: directivesFrom reader context fuel now := by
  simp only [directivesFrom, h, hdirective]

/-- Where a directive is found, a string and the end of a statement stand. -/
theorem directivesFrom_cases (depth fuel : Nat) (context : Context) (state : State) :
    directivesFrom (run depth) context (fuel + 1) state = [] ∨
      ∃ value now, state.token.kind = .string value ∧ state.taken.Ends now ∧
        directivesFrom (run depth) context (fuel + 1) state =
          state.directive now :: directivesFrom (run depth) context fuel now := by
  rw [directivesFrom]
  split
  next node now hread =>
    split
    next directive hdirective =>
      obtain ⟨⟨value, hkind⟩, hends, rfl⟩ :=
        run_announces depth false context node now hread directive hdirective
      exact .inr ⟨value, now, hkind, hends, rfl⟩
    · exact .inl rfl
  · exact .inl rfl

theorem directivesFrom_of_ne (h : ∀ value, state.token.kind ≠ .string value) :
    directivesFrom (run depth) context fuel state = [] := by
  cases fuel with
  | zero => rfl
  | succ fuel =>
    rcases directivesFrom_cases depth fuel context state with hnil | ⟨value, _, hkind, -⟩
    · exact hnil
    · exact absurd hkind (h value)

/-! ### At the top of a script -/

/-- A string at the top of a script is read as a statement. -/
theorem topLevel_string {value : StringValue} (h : state.token.kind = .string value) :
    topLevel reader context state =
      (TopLevel.statement <$> reader (.statement false)) context state := by
  have hlook : ∃ found, atImportExpression? context state = .ok found state := ⟨_, rfl⟩
  obtain ⟨found, hlook⟩ := hlook
  simp [topLevel, Token.isWord, h, hlook]

/-- A reader gives an import or an export. -/
abbrev Declares (read : ParserM TopLevel) : Prop :=
  ∀ state, Gives read state fun statement _ => ∀ node, statement ≠ .statement node

theorem importDeclaration_declares : Declares importDeclaration := by
  intro state
  unfold importDeclaration
  repeat' first
    | with_reducible refine gives_bind fun _ _ => ?_
    | exact gives_pure nofun
    | split
    | dsimp only

theorem exportDeclaration_declares (given : List Node) :
    Declares (exportDeclaration reader given) := by
  intro state
  unfold exportDeclaration exportList exportAll exportDefault
  repeat' first
    | with_reducible refine gives_bind fun _ _ => ?_
    | exact gives_pure nofun
    | split

/-- Where a directive is read at the top of a script, a string stands. -/
theorem topLevel_announces (hreader : ∀ state, Announces (reader (.statement false)) state state) :
    Gives (topLevel reader) state fun statement _ =>
      ∀ node directive, statement = .statement node → directive? node = some directive →
        ∃ value, state.token.kind = .string value := by
  have hdeclares {read : ParserM TopLevel} {now : State} (h : Declares read) :
      Gives read now fun statement _ => ∀ node directive, statement = .statement node →
        directive? node = some directive → ∃ value, state.token.kind = .string value :=
    fun context found final hfound node _ heq => absurd heq (h now context found final hfound node)
  have hstatement {read : ParserM Node} {now : State} (h : Announces read state now) :
      Gives (do return TopLevel.statement (← read)) now fun statement _ => ∀ node directive,
        statement = .statement node → directive? node = some directive →
          ∃ value, state.token.kind = .string value :=
    gives_bind_of h fun node _ hnode => gives_pure fun _ directive heq hdirective => by
      cases heq
      exact (hnode directive hdirective).1
  refine gives_token ?_
  split
  · exact hdeclares (exportDeclaration_declares [])
  · refine gives_look (fun _ => ⟨_, rfl⟩) fun isExpression => ?_
    split
    · exact hdeclares importDeclaration_declares
    · split
      · refine gives_bind fun decorators now => gives_bind fun isExport now => ?_
        split
        · exact hdeclares (exportDeclaration_declares _)
        · exact gives_bind fun start _ => hstatement (classRest_silent _ _ _ _).announces
      · exact hstatement (hreader _)

theorem splitTop_of_ne {statement : TopLevel} (more : List TopLevel)
    (h : ∀ node directive, statement = .statement node → directive? node ≠ some directive) :
    (splitTop (statement :: more)).1 = [] := by
  cases statement with
  | statement node =>
    cases hnode : directive? node with
    | none => simp [splitTop, hnode]
    | some directive => exact absurd hnode (h node directive rfl)
  | _ => rfl

theorem splitTop_of_topLevel {statement : TopLevel} {more : List TopLevel}
    (h : topLevel (run depth) context state = .ok statement now)
    (hmore : (splitTop more).1 = directivesFrom (run depth) context fuel now) :
    (splitTop (statement :: more)).1 = directivesFrom (run depth) context (fuel + 1) state := by
  by_cases hstring : ∃ value, state.token.kind = .string value
  · obtain ⟨value, hkind⟩ := hstring
    rw [topLevel_string hkind, map_apply] at h
    cases hread : run depth (.statement false) context state with
    | error => simp [hread] at h
    | ok node after =>
      simp only [hread] at h
      cases h
      cases hnode : directive? node with
      | none => simp [splitTop, directivesFrom, hread, hnode]
      | some directive => simp [splitTop, directivesFrom, hread, hnode, hmore]
  · rw [directivesFrom_of_ne fun value hkind => hstring ⟨value, hkind⟩]
    refine splitTop_of_ne more fun node directive heq hdirective => hstring ?_
    exact topLevel_announces (fun _ => run_announces depth false) _ _ _ h _ _ heq hdirective

/-- The directives of a script are those that are found one after another. -/
theorem splitTop_of_iterate {n : Nat} {read statements : List TopLevel} {final : State}
    (h : iterate (fun read => do
      if (← kind) == .eof then return .inr read.reverse
      else return .inl ((← topLevel (run depth)) :: read)) n read context state =
        .ok statements final) (hfuel : n ≤ fuel) :
    ∃ more, statements = read.reverse ++ more ∧
      (splitTop more).1 = directivesFrom (run depth) context fuel state := by
  -- The induction is on the rounds of the loop, each of which takes a statement.
  induction n generalizing read state fuel with
  | zero => cases h
  | succ n ih =>
    obtain ⟨fuel, rfl⟩ := Nat.exists_eq_add_one_of_ne_zero (show fuel ≠ 0 by omega)
    obtain ⟨found, after, hfound, h⟩ := bind_eq_ok h
    cases heof : state.token.kind == .eof with
    | true =>
      simp only [bind_apply, kind_apply, heof, if_true, pure_apply] at hfound
      cases hfound
      cases h
      refine ⟨[], (List.append_nil _).symm, (directivesFrom_of_ne fun value hkind => ?_).symm⟩
      rw [hkind] at heof
      cases heof
    | false =>
      simp only [bind_apply, kind_apply, heof, Bool.false_eq_true, if_false] at hfound
      cases htop : topLevel (run depth) context state with
      | error => simp [htop] at hfound
      | ok statement now =>
        simp only [htop, pure_apply] at hfound
        cases hfound
        obtain ⟨more, rfl, hmore⟩ := ih h (Nat.le_of_succ_le_succ hfuel)
        exact ⟨statement :: more, by simp, splitTop_of_topLevel htop hmore⟩

/-- The lexer at the start of a text, behind the line that says what runs it. -/
def startLexer (goal : Goal) (text : String) : Lexer :=
  let (line, rest) := runnerLine text.toList
  (Lexer.start goal rest).skip (line.getD []) rest

/-- The directives with which a text starts that is read in a context. -/
def leadingDirectives (context : Context) (text : String) : List Directive :=
  let lexer := startLexer context.goal text
  directivesFrom (run (8 * lexer.rest.length + 64)) context (lexer.rest.length + 2)
    (startState lexer)

end Parser

/-- The directives of a script are those with which its text starts, and its first line is the one
    that says what runs it. -/
theorem Program.leadingDirectives_of_read {goal : Goal} {text : String} {program : Program}
    (h : Program.read goal text = .ok program) :
    Parser.leadingDirectives (Parser.topContext goal) text = program.directives ∧
      program.hashbang.map (·.stop) = (Parser.runnerLine text.toList).1.map Text.byteLength := by
  unfold Program.read at h
  unfold Parser.leadingDirectives Parser.startLexer
  generalize Parser.runnerLine text.toList = start at h ⊢
  obtain ⟨line, rest⟩ := start
  dsimp only at h ⊢
  set lexer := (Lexer.start (Parser.topContext goal).goal rest).skip (line.getD []) rest with hlexer
  have hstands : (Parser.startState lexer).Stands lexer := rfl
  split at h
  next statements state hread =>
    split at h
    · cases h
    · cases h
      obtain ⟨_, _, htoken, hread⟩ := Parser.bind_eq_ok hread
      cases htoken
      obtain ⟨more, rfl, hmore⟩ :=
        Parser.splitTop_of_iterate hread (Nat.add_le_add_right hstands.length_source_le 2)
      refine ⟨hmore.symm, ?_⟩
      rw [Option.map_map]
      rfl
  next =>
    split at h
    · cases h
    · cases h

example : (Parser.leadingDirectives (Parser.topContext .script) "'a' // b\n'c'; d").map
    (·.inside) = ["a".toList, "c".toList] := by
  decide +kernel

/-! ### The texts of directives -/

/-- The directive that stands at an offset behind a gap, with what ends it. -/
def Directive.behind (offset : Nat) (gap quoted ending : List Char) : Directive where
  span := ⟨offset + Text.byteLength gap, offset + Text.byteLength (gap ++ (quoted ++ ending))⟩
  literal := ⟨offset + Text.byteLength gap, offset + Text.byteLength (gap ++ quoted)⟩
  inside := (quoted.drop 1).dropLast

theorem Directive.later_behind (offset n : Nat) (gap quoted ending : List Char) :
    (Directive.behind offset gap quoted ending).later n =
      Directive.behind (offset + n) gap quoted ending := by
  simp only [Directive.later, Directive.behind, Span.later, Nat.add_right_comm]

/-- The text with which a directive ends, and whether a line has to end behind it. -/
inductive Ending : Bool → List Char → Prop
  /-- Nothing, before the end of a line. -/
  | line : Ending true []
  /-- A semicolon. -/
  | mark {gap : List Char} (hgap : Gap gap) : Ending false (gap ++ [';'])

/-- A text at an offset that holds directives up to the end of the last one. A line may have to end
    before the first. -/
inductive Opening : Bool → Nat → List Char → List Directive → Prop
  /-- No directives. -/
  | nil {line : Bool} {offset : Nat} : Opening line offset [] []
  /-- A directive before others. -/
  | cons {line bare : Bool} {offset : Nat} {gap inside ending more : List Char} {mark : Char}
    {value : StringValue} {directives : List Directive} (hgap : Gap gap)
    (hline : line = true → gap.any isLineEnd = true) (hwrites : Lexeme.Writes mark inside value)
    (hending : Ending bare ending)
    (hmore : Opening bare
      (offset + Text.byteLength (gap ++ (mark :: (inside ++ [mark]) ++ ending))) more directives) :
    Opening line offset (gap ++ (mark :: (inside ++ [mark]) ++ (ending ++ more)))
      (Directive.behind offset gap (mark :: (inside ++ [mark])) ending :: directives)

namespace Opening

variable {line : Bool} {offset : Nat} {text : List Char} {directives : List Directive}

/-- The last directive ends where the text does. -/
theorem stop (h : Opening line offset text directives) :
    ((directives.getLast?.map (·.span.stop)).getD offset) = offset + Text.byteLength text := by
  induction h with
  | nil => rfl
  | @cons line bare offset gap inside ending more mark value directives hgap hline hwrites hending
      hmore ih =>
    rw [List.getLast?_cons, Option.map_some, Option.getD_some]
    have hlast : (directives.getLast?.getD
        (Directive.behind offset gap (mark :: (inside ++ [mark])) ending)).span.stop =
          (directives.getLast?.map (·.span.stop)).getD
            (offset + Text.byteLength (gap ++ (mark :: (inside ++ [mark]) ++ ending))) := by
      cases directives.getLast? <;> rfl
    rw [hlast, ih]
    simp only [Text.byteLength_append]
    omega

theorem length_le (h : Opening line offset text directives) :
    directives.length ≤ text.length := by
  induction h with
  | nil => rfl
  | cons _ _ _ _ _ ih =>
    simp only [List.length_cons, List.length_append] at ih ⊢
    omega

/-- What stands further on may as well stand before. -/
theorem exists_later {n : Nat} (h : Opening line (offset + n) text directives) :
    ∃ before, Opening line offset text before ∧ before.map (·.later n) = directives := by
  generalize heq : offset + n = further at h
  induction h generalizing offset with
  | nil => exact ⟨[], .nil, rfl⟩
  | @cons line bare further gap inside ending more mark value directives hgap hline hwrites hending
      hmore ih =>
    subst heq
    obtain ⟨before, hbefore, rfl⟩ := ih (Nat.add_right_comm _ _ _)
    exact ⟨_, .cons hgap hline hwrites hending hbefore,
      congrArg (· :: _) (Directive.later_behind _ _ _ _ _)⟩

/-- The first token of directives that are followed by a name in a line of its own. -/
theorem exists_shows {rest : List Char} {lexer : Lexer} (h : Opening line offset text directives)
    (hrest : lexer.rest = text ++ ('\n' :: ("Object".toList ++ '.' :: rest))) :
    ∃ gap written after kind, lexer.Shows gap written after kind lexer.next.1 lexer.next.2 ∧
      Parser.endsValue kind = true ∧ kind ≠ .punct .semicolon ∧
      (line = true → gap.any isLineEnd = true) := by
  cases h with
  | nil =>
    exact ⟨['\n'], _, _, _, Lexer.next_object (.blank rfl .nil) hrest, by decide, by decide,
      fun _ => rfl⟩
  | cons hgap hline hwrites hending hmore =>
    rw [List.append_assoc, List.append_assoc] at hrest
    exact ⟨_, _, _, _, Lexer.next_string hgap hwrites hrest, rfl, nofun, hline⟩

end Opening

namespace Parser

variable {context : Context} {state now : State} {depth fuel : Nat}

/-- A string at which a reader of a module stands is written between quotes behind a gap. -/
theorem State.Stands.exists_string {lexer : Lexer} {value : StringValue}
    (hstands : state.Stands lexer) (hgoal : lexer.goal = .module)
    (hkind : state.token.kind = .string value) :
    ∃ gap mark inside rest, Gap gap ∧ Lexeme.Writes mark inside value ∧
      lexer.rest = gap ++ (mark :: (inside ++ [mark]) ++ rest) ∧
      lexer.Shows gap (mark :: (inside ++ [mark])) rest (.string value) state.token state.lexer ∧
      state.lexer.goal = .module := by
  rw [← hstands.token_eq] at hkind
  obtain ⟨gap, mark, inside, rest, hgap, hwrites, hrest, hbehind⟩ :=
    Lexer.exists_of_next_string hgoal hkind
  exact ⟨gap, mark, inside, rest, hgap, hwrites, hrest,
    hstands.shows_behind (Lexer.next_string hgap hwrites hrest), hstands.lexer_eq ▸ hbehind⟩

/-- A directive is known from the text of its string and from where its statement ends. -/
theorem directive_eq {lexer : Lexer} {gap quoted rest : List Char} {kind : TokenKind}
    (hshows : lexer.Shows gap quoted rest kind state.token state.lexer) (ending : List Char)
    (hstop : now.stop = lexer.offset + Text.byteLength (gap ++ (quoted ++ ending))) :
    state.directive now = Directive.behind lexer.offset gap quoted ending := by
  rw [State.directive, Directive.behind, hshows.span, hshows.written, hstop]

/-- The end of a statement in a module is a text with which a directive ends. -/
theorem State.Ends.exists_ending {lexer : Lexer} (h : state.Ends now) (hstands : state.Stands lexer)
    (hgoal : lexer.goal = .module) (hfresh : lexer.newline = false)
    (hstop : state.stop = lexer.offset) :
    ∃ bare ending behind, Ending bare ending ∧ lexer.rest = ending ++ behind.rest ∧
      now.Stands behind ∧ behind.goal = .module ∧
      behind.offset = lexer.offset + Text.byteLength ending ∧ now.stop = behind.offset ∧
      (bare = true → behind.newline = false ∧ mayEnd now.token = true) := by
  cases h with
  | bare _ hmay =>
    exact ⟨true, [], lexer, .line, rfl, hstands, hgoal, rfl, hstop, fun _ => ⟨hfresh, hmay⟩⟩
  | mark hmark =>
    rw [← hstands.token_eq] at hmark
    obtain ⟨gap, rest, hgap, hrest, hbehind⟩ := Lexer.exists_of_next_semicolon hgoal hmark
    have hshows := hstands.shows_behind (Lexer.next_semicolon hgap hrest)
    refine ⟨false, gap ++ [';'], state.lexer, .mark hgap, ?_, state.stands_taken,
      hstands.lexer_eq ▸ hbehind, hshows.offset, ?_, nofun⟩
    · rw [hrest, hshows.rest, List.append_assoc, List.singleton_append]
    · rw [State.taken_stop, hshows.span, hshows.offset]

/-- Where a text with which a directive ends stands, a statement ends. -/
theorem exists_ends_of_ending {bare : Bool} {ending more : List Char} {lexer : Lexer}
    (h : Ending bare ending) (hstands : state.Stands lexer) (hstop : state.stop = lexer.offset)
    (hrest : lexer.rest = ending ++ more)
    (hbare : bare = true → endsValue state.token.kind = true ∧
      state.token.kind ≠ .punct .semicolon ∧ state.token.newline = true) :
    ∃ now behind, state.Ends now ∧ now.Stands behind ∧ behind.rest = more ∧
      behind.offset = lexer.offset + Text.byteLength ending ∧ now.stop = behind.offset ∧
      endsValue state.token.kind = true := by
  cases h with
  | line =>
    obtain ⟨hend, hmark, hnewline⟩ := hbare rfl
    refine ⟨state, lexer, .bare hmark ?_, hstands, hrest, rfl, hstop, hend⟩
    rw [mayEnd, hnewline, Bool.true_or, Bool.true_or]
  | mark hgap =>
    rw [List.append_assoc, List.singleton_append] at hrest
    have hshows := hstands.shows_behind (Lexer.next_semicolon hgap hrest)
    refine ⟨state.taken, state.lexer, .mark hshows.kind, state.stands_taken, hshows.rest,
      hshows.offset, ?_, by rw [hshows.kind]; rfl⟩
    rw [State.taken_stop, hshows.span, hshows.offset]

/-- Directives at the start of what is left of a module are a text of directives. -/
theorem exists_opening {line : Bool} {lexer : Lexer} (hstands : state.Stands lexer)
    (hgoal : lexer.goal = .module)
    (hline : line = true → lexer.newline = false ∧ mayEnd state.token = true) :
    ∃ text rest, lexer.rest = text ++ rest ∧
      Opening line lexer.offset text (directivesFrom (run depth) context fuel state) := by
  -- One directive after another is taken off with what ends it, so the rest of them stands where the
  -- next statement starts.
  induction fuel generalizing state lexer line with
  | zero => exact ⟨[], lexer.rest, rfl, .nil⟩
  | succ fuel ih =>
    rcases directivesFrom_cases depth fuel context state with
      hnil | ⟨value, now, hkind, hends, hcons⟩
    · rw [hnil]
      exact ⟨[], lexer.rest, rfl, .nil⟩
    · obtain ⟨gap, mark, inside, rest, hgap, hwrites, hrest, hshows, hbehind⟩ :=
        hstands.exists_string hgoal hkind
      have hfirst : line = true → gap.any isLineEnd = true := by
        intro h
        obtain ⟨hfresh, hmay⟩ := hline h
        have hnewline := hshows.newline
        rw [hfresh, Bool.false_or] at hnewline
        rw [← hnewline]
        -- A string is none of the tokens before which a statement may end on its line.
        simpa [mayEnd, hkind] using hmay
      obtain ⟨bare, ending, behind, hending, hsame, hstands', hgoal', hoffset, hstop, hbare⟩ :=
        hends.exists_ending state.stands_taken hbehind hshows.fresh
          (by rw [State.taken_stop, hshows.span, hshows.offset])
      have hwhole : behind.offset = lexer.offset +
          Text.byteLength (gap ++ (mark :: (inside ++ [mark]) ++ ending)) := by
        rw [hoffset, hshows.offset, ← List.append_assoc, Text.byteLength_append (gap ++ _),
          Nat.add_assoc]
      obtain ⟨text, after, htext, hopening⟩ := ih hstands' hgoal' hbare
      rw [hwhole] at hopening
      rw [hcons, directive_eq hshows ending (hstop.trans hwhole)]
      refine ⟨_, after, ?_, .cons hgap hfirst hwrites hending hopening⟩
      rw [hrest, ← hshows.rest, hsame, htext]
      simp

/-- Directives are found one after another where the text of them is followed by a name in a line of
    its own. -/
theorem directivesFrom_of_opening {line : Bool} {offset : Nat} {text rest : List Char}
    {directives : List Directive} {lexer : Lexer} (h : Opening line offset text directives)
    (hstands : state.Stands lexer) (hoffset : lexer.offset = offset)
    (hrest : lexer.rest = text ++ ('\n' :: ("Object".toList ++ '.' :: rest)))
    (hfuel : directives.length < fuel) :
    directivesFrom (run (depth + 2)) context fuel state = directives := by
  induction h generalizing state lexer fuel with
  | nil =>
    -- The name is no string.
    have hshows := hstands.shows_behind (Lexer.next_object (.blank (c := '\n') rfl .nil) hrest)
    refine directivesFrom_of_ne fun value hkind => ?_
    rw [hshows.kind] at hkind
    cases hkind
  | @cons line bare offset gap inside ending more mark value directives hgap hline hwrites hending
      hmore ih =>
    obtain ⟨fuel, rfl⟩ := Nat.exists_eq_add_one_of_ne_zero (Nat.ne_of_gt (Nat.zero_lt_of_lt hfuel))
    subst hoffset
    rw [List.append_assoc, List.append_assoc] at hrest
    have hshows := hstands.shows_behind (Lexer.next_string hgap hwrites hrest)
    have hleft := hshows.rest
    rw [List.append_assoc] at hleft
    have hbare : bare = true → endsValue state.taken.token.kind = true ∧
        state.taken.token.kind ≠ .punct .semicolon ∧ state.taken.token.newline = true := by
      rintro rfl
      cases hending
      obtain ⟨before, written, after, kind, hnext, hend, hmark, hnewline⟩ :=
        hmore.exists_shows hleft
      have hnext := state.stands_taken.shows_behind hnext
      refine ⟨hnext.kind ▸ hend, hnext.kind ▸ hmark, ?_⟩
      rw [hnext.newline, hnewline rfl, Bool.or_true]
    obtain ⟨now, behind, hends, hbehind, hmore, hoffset, hstop, hend⟩ :=
      exists_ends_of_ending hending state.stands_taken
        (by rw [State.taken_stop, hshows.span, hshows.offset]) hleft hbare
    have hwhole : behind.offset = lexer.offset +
        Text.byteLength (gap ++ (mark :: (inside ++ [mark]) ++ ending)) := by
      rw [hoffset, hshows.offset, ← List.append_assoc, Text.byteLength_append (gap ++ _),
        Nat.add_assoc]
    obtain ⟨node, hread, hnode⟩ := statement_string hshows.kind hend hends
    rw [directivesFrom_of_some hread hnode, ih hbehind hwhole hmore (Nat.lt_of_succ_lt_succ hfuel),
      directive_eq hshows ending (hstop.trans hwhole)]

/-- A text of directives is no first line that says what runs a script. -/
theorem runnerLine_of_opening {line : Bool} {offset : Nat} {text more : List Char}
    {directives : List Directive} (h : Opening line offset text directives) :
    runnerLine (text ++ '\n' :: more) = (none, text ++ '\n' :: more) := by
  have hstart : (text ++ '\n' :: more).head? ≠ some '#' := by
    cases h with
    | nil => exact nofun
    | cons hgap hline hwrites hending hmore =>
      cases hgap with
      | nil => rcases hwrites.1 with rfl | rfl <;> exact nofun
      | blank hc =>
        intro heq
        cases heq
        exact absurd hc (by decide)
      | line => exact nofun
      | block => exact nofun
  unfold runnerLine
  split
  next heq => exact absurd (by rw [heq]; rfl) hstart
  · rfl

/-- A text of directives that is followed by a name in a line of its own starts with them, in
    whatever context it is read. -/
theorem leadingDirectives_of_opening {text rest : List Char} {directives : List Directive}
    {code : String} (h : Opening false 0 text directives)
    (hcode : code.toList = text ++ ('\n' :: ("Object".toList ++ '.' :: rest))) :
    leadingDirectives context code = directives := by
  have hle := h.length_le
  have hlength := congrArg List.length hcode
  rw [List.length_append] at hlength
  have hlexer : startLexer context.goal code =
      (Lexer.start context.goal code.toList).skip [] code.toList := by
    rw [startLexer, hcode, runnerLine_of_opening h]
    rfl
  rw [leadingDirectives, hlexer]
  exact directivesFrom_of_opening h rfl rfl hcode (by dsimp only [Lexer.skip]; omega)

end Parser

/-- A module starts with a line that says what runs it, if it has one, and with the text of its
    directives. -/
theorem Program.exists_opening_of_read {text : String} {program : Program}
    (h : Program.read .module text = .ok program) :
    ∃ line opening later, text.toList = line ++ (opening ++ later) ∧
      Text.byteLength line = (program.hashbang.map (·.stop)).getD 0 ∧
      Opening false (Text.byteLength line) opening program.directives := by
  obtain ⟨hleads, hhashbang⟩ := leadingDirectives_of_read h
  have hline : text.toList = (Parser.runnerLine text.toList).1.getD [] ++
      (Parser.runnerLine text.toList).2 := by
    unfold Parser.runnerLine
    split
    · exact List.takeWhile_append_dropWhile.symm
    · rfl
  unfold Parser.leadingDirectives Parser.startLexer at hleads
  generalize Parser.runnerLine text.toList = start at hleads hhashbang hline
  obtain ⟨line, rest⟩ := start
  dsimp only at hleads hhashbang hline
  set lexer := (Lexer.start (Parser.topContext .module).goal rest).skip (line.getD []) rest
    with hlexer
  have hfound : ∃ opening later, lexer.rest = opening ++ later ∧
      Opening false lexer.offset opening program.directives := by
    rw [← hleads]
    exact Parser.exists_opening rfl rfl nofun
  obtain ⟨opening, later, hopening, hdirectives⟩ := hfound
  refine ⟨line.getD [], opening, later, ?_, ?_, ?_⟩
  · rw [hline, ← hopening]
    rfl
  · rw [hhashbang]
    cases line <;> rfl
  · simpa [hlexer, Lexer.skip, Lexer.start] using hdirectives

/-- The directives of a module are those with which a text starts that goes on otherwise behind
    them, with a name in a line of its own, and lacks the first line. -/
theorem Program.leadingDirectives_of_cut {source code : String} {program : Program}
    {line opening later rest : List Char} (hread : Program.read .module source = .ok program)
    (hsource : source.toList = line ++ opening ++ later)
    (hstop : Text.byteLength (line ++ opening) =
      (program.directives.getLast?.map (·.span.stop)).getD 0)
    (hline : program.directives ≠ [] →
      Text.byteLength line = (program.hashbang.map (·.stop)).getD 0)
    (hcode : code.toList = opening ++ ('\n' :: ("Object".toList ++ '.' :: rest)))
    (context : Parser.Context) :
    (Parser.leadingDirectives context code).map (·.later (Text.byteLength line)) =
      program.directives := by
  obtain ⟨first, text, after, hsame, hfirst, hopening⟩ := exists_opening_of_read hread
  have hends := hopening.stop
  cases hlast : program.directives.getLast? with
  | none =>
    have hnil : program.directives = [] := List.getLast?_eq_none_iff.1 hlast
    rw [hlast] at hstop
    obtain rfl : opening = [] := by
      by_contra hne
      have := Text.byteLength_pos hne
      rw [Text.byteLength_append] at hstop
      simp only [Option.map_none, Option.getD_none] at hstop
      omega
    rw [hnil, Parser.leadingDirectives_of_opening .nil hcode]
    rfl
  | some last =>
    have hne : program.directives ≠ [] := by
      rintro hnil
      rw [hnil] at hlast
      cases hlast
    rw [List.append_assoc] at hsource
    rw [hlast] at hstop hends
    obtain ⟨rfl, hrest⟩ :=
      Text.append_inj (hsource.symm.trans hsame) ((hline hne).trans hfirst.symm)
    rw [Text.byteLength_append] at hstop
    obtain ⟨rfl, -⟩ := Text.append_inj hrest (by
      simp only [Option.map_some, Option.getD_some] at hstop hends
      omega)
    rw [← Nat.zero_add (Text.byteLength line)] at hopening
    obtain ⟨before, hbefore, heq⟩ := hopening.exists_later
    rw [Parser.leadingDirectives_of_opening hbefore hcode, heq]

end Script

end Bundler

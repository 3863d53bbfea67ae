import Bundler.Proofs.Json.Grammar

/-!
# Written values read back

Both ways of writing a value follow the grammar, so what they write of a value reads back as this
value, if it can be written at all: if its strings and numbers are well formed, and it nests no
deeper than a reader follows.

* `Json.writes_array`, `Json.writes_object`: arrays and objects in a regular layout;
* `Json.Fits`: a value can be written, and nests at most so deep;
* `Json.Fits.writes_compact`, `Json.Fits.writes_pretty`: what is written for a value writes it;
* `Json.parse?_of_spells_of_fits`: every text of such a value is read as this value.
-/

namespace Bundler.Json

variable {depth : Nat} {value : Json} {text : List Char}

/-! ### Regular layouts -/

theorem intercalate_concat_append (texts : List (List Char)) (last space : List Char) :
    [','].intercalate (texts ++ [last]) ++ space =
      [','].intercalate (texts ++ [last ++ space]) := by
  induction texts with
  | nil => simp only [List.nil_append, List.intercalate_singleton]
  | cons first texts ih =>
    cases texts with
    | nil =>
      simp only [List.nil_append, List.cons_append, intercalate_comma, List.intercalate_singleton,
        List.append_assoc]
    | cons second texts =>
      simp only [List.cons_append, intercalate_comma, List.append_assoc] at ih ⊢
      rw [ih]

theorem isSpaces_nil : IsSpaces [] :=
  nofun

/-- An array with the same blanks before each of its elements, and blanks before its end. -/
theorem writes_array {elements : List Json} (hne : elements ≠ []) {before last : List Char}
    (hbefore : IsSpaces before) (hlast : IsSpaces last) {print : Json → List Char}
    (h : ∀ element ∈ elements, Writes depth element (print element)) :
    Writes (depth + 1) (.array elements)
      ('[' :: [','].intercalate (elements.map fun element => before ++ print element) ++ last ++
        [']']) := by
  obtain rfl | ⟨front, final, rfl⟩ := List.eq_nil_or_concat' elements
  · exact absurd rfl hne
  obtain ⟨hfront, hfinal⟩ := List.forall_mem_append.1 h
  -- The blanks before the end stand behind the final element.
  let place (element : Json) : Placed := ⟨before, element, print element, []⟩
  let items := front.map place ++ [⟨before, final, print final, last⟩]
  have hitems : ∀ item ∈ items, item.IsSpaced ∧ Writes depth item.value item.text := by
    refine List.forall_mem_append.2 ⟨?_, ?_⟩
    · rw [List.forall_mem_map]
      exact fun element helement => ⟨⟨hbefore, isSpaces_nil⟩, hfront element helement⟩
    · rw [List.forall_mem_singleton]
      exact ⟨⟨hbefore, hlast⟩, hfinal final (.head _)⟩
  have hwrites := Writes.elements (List.append_ne_nil_of_right_ne_nil _ (List.cons_ne_nil _ _))
    (fun item hitem => (hitems item hitem).1) fun item hitem => (hitems item hitem).2
  have hvalues : items.map Placed.value = front ++ [final] := by
    simp [items, place, Function.comp_def]
  have hwritten : [','].intercalate (items.map Placed.written) =
      [','].intercalate ((front ++ [final]).map fun element => before ++ print element) ++
        last := by
    simp only [List.map_append, List.map_singleton, intercalate_concat_append, List.map_map, items]
    simp [place, Placed.written, Function.comp_def]
  rw [hvalues, hwritten] at hwrites
  exact hwrites

/-- An object with the same blanks before each of its members and before each value, and blanks
    before its end. -/
theorem writes_object {members : List (List Char × Json)} (hne : members ≠ [])
    {before gap last : List Char} (hbefore : IsSpaces before) (hgap : IsSpaces gap)
    (hlast : IsSpaces last) {print : Json → List Char}
    (hnames : ∀ member ∈ members, IsInside member.1)
    (h : ∀ member ∈ members, Writes depth member.2 (print member.2)) :
    Writes (depth + 1) (.object members)
      ('\x7b' :: [','].intercalate
        (members.map fun member => before ++ quoted member.1 ++ ':' :: gap ++ print member.2) ++
        last ++ ['\x7d']) := by
  obtain rfl | ⟨front, final, rfl⟩ := List.eq_nil_or_concat' members
  · exact absurd rfl hne
  obtain ⟨hfront, hfinal⟩ := List.forall_mem_append.1 h
  obtain ⟨hfrontNames, hfinalName⟩ := List.forall_mem_append.1 hnames
  -- The last member has the blanks before the end of the object behind it.
  let place (member : List Char × Json) : Named :=
    ⟨before, member.1, [], ⟨gap, member.2, print member.2, []⟩⟩
  let items := front.map place ++ [⟨before, final.1, [], ⟨gap, final.2, print final.2, last⟩⟩]
  have hitems : ∀ item ∈ items,
      item.IsSpaced ∧ Writes depth item.placed.value item.placed.text := by
    refine List.forall_mem_append.2 ⟨?_, ?_⟩
    · rw [List.forall_mem_map]
      exact fun member hmember => ⟨⟨hbefore, hfrontNames member hmember, isSpaces_nil, hgap,
        isSpaces_nil⟩, hfront member hmember⟩
    · rw [List.forall_mem_singleton]
      exact ⟨⟨hbefore, hfinalName final (.head _), isSpaces_nil, hgap, hlast⟩,
        hfinal final (.head _)⟩
  have hwrites := Writes.members (List.append_ne_nil_of_right_ne_nil _ (List.cons_ne_nil _ _))
    (fun item hitem => (hitems item hitem).1) fun item hitem => (hitems item hitem).2
  have hmembers : items.map Named.member = front ++ [final] := by
    simp [items, place, Named.member, Function.comp_def]
  have hwritten : [','].intercalate (items.map Named.written) =
      [','].intercalate ((front ++ [final]).map fun member =>
        before ++ quoted member.1 ++ ':' :: gap ++ print member.2) ++ last := by
    simp only [List.map_append, List.map_singleton, intercalate_concat_append, List.map_map, items]
    simp [place, Named.written, Placed.written, Function.comp_def]
  rw [hmembers, hwritten] at hwrites
  exact hwrites

/-! ### The two ways of writing a value -/

theorem compactElements_eq (elements : List Json) :
    compactElements elements = [','].intercalate (elements.map compact) := by
  induction elements with
  | nil => rw [compactElements]; rfl
  | cons element more ih =>
    cases more with
    | nil => rw [compactElements, List.map_singleton, List.intercalate_singleton]
    | cons other more =>
      rw [compactElements, ih]
      · simp only [List.map_cons, intercalate_comma]
      · exact List.cons_ne_nil _ _

theorem compactMembers_eq (members : List (List Char × Json)) :
    compactMembers members =
      [','].intercalate (members.map fun member => quoted member.1 ++ ':' :: compact member.2) := by
  induction members with
  | nil => rw [compactMembers]; rfl
  | cons member more ih =>
    cases more with
    | nil => rw [compactMembers, List.map_singleton, List.intercalate_singleton]
    | cons other more =>
      rw [compactMembers, ih]
      · simp only [List.map_cons, intercalate_comma, List.append_assoc, List.cons_append]
      · exact List.cons_ne_nil _ _

theorem prettyElements_eq (depth : Nat) (elements : List Json) :
    prettyElements depth elements =
      [','].intercalate (elements.map fun element => newline depth ++ pretty depth element) := by
  induction elements with
  | nil => rw [prettyElements]; rfl
  | cons element more ih =>
    cases more with
    | nil => rw [prettyElements, List.map_singleton, List.intercalate_singleton]
    | cons other more =>
      rw [prettyElements, ih]
      · simp only [List.map_cons, intercalate_comma]
      · exact List.cons_ne_nil _ _

theorem prettyMembers_eq (depth : Nat) (members : List (List Char × Json)) :
    prettyMembers depth members = [','].intercalate (members.map fun member =>
      newline depth ++ quoted member.1 ++ ':' :: [' '] ++ pretty depth member.2) := by
  induction members with
  | nil => rw [prettyMembers]; rfl
  | cons member more ih =>
    cases more with
    | nil =>
      rw [prettyMembers, List.map_singleton, List.intercalate_singleton,
        List.append_assoc _ _ (pretty _ _)]
      rfl
    | cons other more =>
      rw [prettyMembers, ih]
      · simp only [List.map_cons, intercalate_comma, List.append_assoc, List.cons_append,
          List.nil_append]
      · exact List.cons_ne_nil _ _

theorem isSpaces_newline (level : Nat) : IsSpaces (newline level) := by
  refine List.forall_mem_cons.2 ⟨by decide, fun c hc => ?_⟩
  rw [List.eq_of_mem_replicate hc]
  decide

/-! ### Values that can be written -/

/-- A value can be written, and nests at most so deep. -/
inductive Fits : Nat → Json → Prop where
  | null {depth : Nat} : Fits depth .null
  | bool {depth : Nat} (value : Bool) : Fits depth (.bool value)
  | number {depth : Nat} {digits : List Char} (h : IsNumber digits) : Fits depth (.number digits)
  | written {depth : Nat} {inside : List Char} (h : IsInside inside) : Fits depth (.written inside)
  | array {depth : Nat} {elements : List Json} (h : ∀ element ∈ elements, Fits depth element) :
    Fits (depth + 1) (.array elements)
  | object {depth : Nat} {members : List (List Char × Json)}
    (hnames : ∀ member ∈ members, IsInside member.1)
    (h : ∀ member ∈ members, Fits depth member.2) : Fits (depth + 1) (.object members)

theorem Fits.string (text : String) : Fits depth (.string text) :=
  .written (isInside_escapeAll _)

/-- What a text writes can be written. -/
theorem Writes.fits (h : Writes depth value text) : Fits depth value := by
  induction h with
  | null => exact .null
  | true | false => exact .bool _
  | number h => exact .number h
  | string h => exact .written h
  | noElements => exact .array nofun
  | elements _ _ _ ih => exact .array (List.forall_mem_map.2 ih)
  | noMembers => exact .object nofun nofun
  | members _ hspaced _ ih =>
    exact .object (List.forall_mem_map.2 fun item hitem => (hspaced item hitem).2.1)
      (List.forall_mem_map.2 ih)

/-- A text that writes a value does so at every depth to which the value nests. -/
theorem Writes.of_fits {limit : Nat} (h : Writes depth value text) (hfits : Fits limit value) :
    Writes limit value text := by
  induction h generalizing limit with
  | null => exact .null
  | true => exact .true
  | false => exact .false
  | number h => exact .number h
  | string h => exact .string h
  | noElements h =>
    cases hfits with
    | array => exact .noElements h
  | elements hne hspaced _ ih =>
    cases hfits with
    | array hitems =>
      exact .elements hne hspaced fun item hitem =>
        ih item hitem (List.forall_mem_map.1 hitems item hitem)
  | noMembers h =>
    cases hfits with
    | object => exact .noMembers h
  | members hne hspaced _ ih =>
    cases hfits with
    | object _ hitems =>
      exact .members hne hspaced fun item hitem =>
        ih item hitem (List.forall_mem_map.1 hitems item hitem)

/-- What is written compactly for a value writes it. -/
theorem Fits.writes_compact (h : Fits depth value) : Writes depth value (compact value) := by
  induction h with
  | null => rw [compact]; exact .null
  | bool value =>
    cases value with
    | false => rw [compact]; exact .false
    | true => rw [compact]; exact .true
  | number h => rw [compact]; exact .number h
  | written h => rw [compact]; exact .string h
  | @array _ elements _ ih =>
    rw [compact]
    by_cases hne : elements = []
    · rw [hne, compactElements]
      exact .noElements isSpaces_nil
    · have hwrites := writes_array hne isSpaces_nil isSpaces_nil ih
      rw [List.append_nil] at hwrites
      rwa [compactElements_eq]
  | @object _ members hnames _ ih =>
    rw [compact]
    by_cases hne : members = []
    · rw [hne, compactMembers]
      exact .noMembers isSpaces_nil
    · have hwrites := writes_object hne isSpaces_nil isSpaces_nil isSpaces_nil hnames ih
      simp only [List.nil_append, List.append_nil, List.append_assoc, List.cons_append] at hwrites
      rwa [compactMembers_eq]

/-- What is written in lines for a value writes it. -/
theorem Fits.writes_pretty (h : Fits depth value) (level : Nat) :
    Writes depth value (pretty level value) := by
  induction h generalizing level with
  | null => rw [pretty]; exact .null
  | bool value =>
    cases value with
    | false => rw [pretty]; exact .false
    | true => rw [pretty]; exact .true
  | number h => rw [pretty]; exact .number h
  | written h => rw [pretty]; exact .string h
  | @array _ elements _ ih =>
    rw [pretty]
    split_ifs with hempty
    · rw [List.isEmpty_iff.1 hempty]
      exact .noElements isSpaces_nil
    · rw [prettyElements_eq]
      exact writes_array (mt List.isEmpty_iff.2 hempty) (isSpaces_newline _) (isSpaces_newline _)
        fun element helement => ih element helement _
  | @object _ members hnames _ ih =>
    rw [pretty]
    split_ifs with hempty
    · rw [List.isEmpty_iff.1 hempty]
      exact .noMembers isSpaces_nil
    · rw [prettyMembers_eq]
      exact writes_object (mt List.isEmpty_iff.2 hempty) (isSpaces_newline _)
        (List.forall_mem_singleton.2 (by decide)) (isSpaces_newline _) hnames
        fun member hmember => ih member hmember _

/-- A text writes itself, without blanks around it. -/
theorem Writes.spells (h : Writes depth value text) : Spells depth value text :=
  ⟨[], text, [], isSpaces_nil, isSpaces_nil, h, by rw [List.nil_append, List.append_nil]⟩

theorem Spells.fits (h : Spells depth value text) : Fits depth value := by
  obtain ⟨_, _, _, _, _, hwrites, _⟩ := h
  exact hwrites.fits

/-- A text is read as the value that it writes, if that nests no deeper than a reader follows. -/
theorem parse?_of_spells_of_fits (h : Spells depth value text) (hfits : Fits maxDepth value) :
    parse? text = some value := by
  obtain ⟨before, inner, after, hbefore, hafter, hwrites, rfl⟩ := h
  exact parse?_of_spells ⟨before, inner, after, hbefore, hafter, hwrites.of_fits hfits, rfl⟩

end Bundler.Json

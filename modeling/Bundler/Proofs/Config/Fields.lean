import Bundler.Config.Format
import Bundler.Proofs.Json.Printed
import Mathlib.Logic.Relation

/-!
# Groups of fields

A group of fields is read off an object by its names, so much of the object may change without
anything being read differently: the order of its members, the members that nobody asks for, and
those that say what would be taken without them.

* `Json.Group.Alters`: such a change of a value;
* `Json.Group.Agrees`, `Json.Group.AgreeAll`: fields of which the same is read;
* `Json.Group.Alters.agreeAll_fields?`: a change leaves fields that agree;
* `Json.Group.Alters.fits`: a changed value can be written as well, and nests no deeper.
-/

namespace Bundler.Json

/-! ### What an object says of a field -/

/-- The values that stand under a name, however it is written. -/
def valuesOf (name : String) (members : List (List Char × Json)) : List Json :=
  (members.filter fun member => Text.unescape member.1 == some name.toList).map Prod.snd

/-- The one value, if there is any; nothing at all where there are more. -/
def only? : List Json → Option (Option Json)
  | [] => some none
  | [value] => some (some value)
  | _ => none

/-- Every name stands for a text. -/
def Readable (members : List (List Char × Json)) : Prop :=
  ∀ member ∈ members, (Text.unescape member.1).isSome

section

variable {name : String} {names : List String} {written : List Char} {value : Json}
  {members before after : List (List Char × Json)}

theorem valuesOf_append :
    valuesOf name (before ++ after) = valuesOf name before ++ valuesOf name after := by
  rw [valuesOf, List.filter_append, List.map_append, ← valuesOf, ← valuesOf]

theorem valuesOf_cons_of_eq (h : Text.unescape written = some name.toList) :
    valuesOf name ((written, value) :: members) = value :: valuesOf name members := by
  rw [valuesOf, List.filter_cons_of_pos (by simpa using h), List.map_cons, ← valuesOf]

theorem valuesOf_cons_of_ne (h : Text.unescape written ≠ some name.toList) :
    valuesOf name ((written, value) :: members) = valuesOf name members := by
  rw [valuesOf, List.filter_cons_of_neg (by simpa using h), ← valuesOf]

theorem valuesOf_eq_nil (h : ∀ member ∈ members, Text.unescape member.1 ≠ some name.toList) :
    valuesOf name members = [] := by
  rw [valuesOf, List.map_eq_nil_iff, List.filter_eq_nil_iff]
  simpa using h

/-- A name stands for one text only. -/
theorem ne_of_unescape {other : String} (h : Text.unescape written = some other.toList)
    (hne : other ≠ name) : Text.unescape written ≠ some name.toList := by
  rw [h]
  exact fun heq => hne (String.toList_inj.1 (Option.some.inj heq))

theorem only?_perm {values others : List Json} (h : values.Perm others) :
    only? values = only? others := by
  rcases values with _ | ⟨first, _ | ⟨second, more⟩⟩
  · rw [h.nil_eq]
  · rw [List.perm_singleton.1 h.symm]
  · obtain ⟨other, others, rfl⟩ := List.exists_cons_of_length_eq_add_one h.length_eq.symm
    obtain ⟨another, others, rfl⟩ :=
      List.exists_cons_of_length_eq_add_one (Nat.succ.inj h.length_eq).symm
    rfl

theorem only?_append_cons (first : Json) (more values : List Json) :
    only? (first :: more ++ value :: values) = none := by
  cases more <;> rfl

theorem readable_cons :
    Readable ((written, value) :: members) ↔ (Text.unescape written).isSome ∧ Readable members :=
  List.forall_mem_cons

theorem named?_cons :
    named? ((written, value) :: members) = (Text.unescape written).bind fun text =>
      (named? members).map ((String.ofList text, value) :: ·) := by
  rw [named?, List.mapM_cons, ← named?]
  dsimp only
  cases Text.unescape written with
  | none => rfl
  | some text => cases named? members <;> rfl

theorem field?_eq (name : String) (named : List (String × Json)) :
    field? name named = only? ((named.filter (·.1 == name)).map Prod.snd) := by
  rw [field?]
  generalize named.filter (·.1 == name) = found
  rcases found with _ | ⟨first, _ | ⟨second, more⟩⟩ <;> rfl

/-- Members whose names stand for texts are found under these texts. -/
theorem exists_named?_of_readable (h : Readable members) :
    ∃ named, named? members = some named ∧
      ∀ name, (named.filter (·.1 == name)).map Prod.snd = valuesOf name members := by
  induction members with
  | nil => exact ⟨[], rfl, fun _ => rfl⟩
  | cons member members ih =>
    obtain ⟨hmember, hmembers⟩ := readable_cons.1 h
    obtain ⟨text, htext⟩ := Option.isSome_iff_exists.1 hmember
    obtain ⟨named, hnamed, hvalues⟩ := ih hmembers
    refine ⟨(String.ofList text, member.2) :: named, ?_, fun name => ?_⟩
    · rw [named?_cons, htext, hnamed]
      rfl
    · by_cases hname : text = name.toList
      · rw [valuesOf_cons_of_eq (htext.trans (congrArg some hname)), ← hvalues,
          List.filter_cons_of_pos (by simp [hname]), List.map_cons]
      · rw [valuesOf_cons_of_ne (by simp [htext, hname]), ← hvalues, List.filter_cons_of_neg]
        simpa [← String.toList_inj] using hname

theorem named?_of_not_readable (h : ¬Readable members) : named? members = none := by
  induction members with
  | nil => exact absurd nofun h
  | cons member members ih =>
    rw [named?_cons]
    cases htext : Text.unescape member.1 with
    | none => rfl
    | some text =>
      rw [Option.bind_some, ih fun hmembers => h (readable_cons.2 ⟨by rw [htext]; rfl, hmembers⟩)]
      rfl

theorem fields?_object_of_readable (h : Readable members) :
    fields? names (.object members) = names.mapM fun name => only? (valuesOf name members) := by
  obtain ⟨named, hnamed, hvalues⟩ := exists_named?_of_readable h
  rw [fields?, hnamed]
  refine congrArg (List.mapM · names) (funext fun name => ?_)
  rw [field?_eq, hvalues]

theorem fields?_object_of_not_readable (h : ¬Readable members) :
    fields? names (.object members) = none := by
  rw [fields?, named?_of_not_readable h]
  rfl

end

/-! ### Changes of a group -/

/-- A value without parts. -/
inductive IsScalar : Json → Prop where
  | null : IsScalar .null
  | bool (value : Bool) : IsScalar (.bool value)
  | number {digits : List Char} (h : IsNumber digits) : IsScalar (.number digits)
  | written {inside : List Char} (h : IsInside inside) : IsScalar (.written inside)

theorem IsScalar.fits {depth : Nat} {value : Json} (h : IsScalar value) : Fits depth value := by
  cases h with
  | null => exact .null
  | bool value => exact .bool value
  | number h => exact .number h
  | written h => exact .written h

/-- A group of fields. -/
structure Group where
  /-- The names of the fields, in order. -/
  names : List String
  /-- A field says what is taken without it. -/
  IsDefault : String → Json → Prop
  /-- The value of a field changes in its parts. -/
  Inner : String → Json → Json → Prop

namespace Group

/-- A group of fields whose values have no parts. -/
def flat (names : List String) (isDefault : String → Json → Prop) : Group :=
  { names
    IsDefault := isDefault
    Inner := fun _ _ _ => False }

/-- A change of a group of fields that nobody sees. -/
inductive Alters (group : Group) : Json → Json → Prop where
  /-- The members stand in another order. -/
  | reorder {members others : List (List Char × Json)} (h : members.Perm others) :
    Alters group (.object members) (.object others)
  /-- A field is left out that has its default. Nothing is read under a name that stands twice, so
      the field is the only one of its name. -/
  | drop {before after : List (List Char × Json)} {written : List Char} {name : String}
    {value : Json} (hname : Text.unescape written = some name.toList)
    (honce : ∀ member ∈ before ++ after, Text.unescape member.1 ≠ some name.toList)
    (hdefault : group.IsDefault name value) :
    Alters group (.object (before ++ (written, value) :: after)) (.object (before ++ after))
  /-- A member is added under a name that no field has. -/
  | add {before after : List (List Char × Json)} {written : List Char} {name : String}
    {value : Json} (hwritten : IsInside written)
    (hname : Text.unescape written = some name.toList) (hunknown : name ∉ group.names)
    (hscalar : IsScalar value) :
    Alters group (.object (before ++ after)) (.object (before ++ (written, value) :: after))
  /-- The value of a field changes in its parts. -/
  | within {before after : List (List Char × Json)} {written : List Char} {name : String}
    {value other : Json} (hname : Text.unescape written = some name.toList)
    (hinner : group.Inner name value other) :
    Alters group (.object (before ++ (written, value) :: after))
      (.object (before ++ (written, other) :: after))
  /-- The value of a field changes that stands in an array. -/
  | element {before after : List Json} {name : String} {value other : Json}
    (hname : group.names[before.length]? = some name) (hinner : group.Inner name value other) :
    Alters group (.array (before ++ value :: after)) (.array (before ++ other :: after))

/-- Changes of a group, one after another. -/
def Varies (group : Group) : Json → Json → Prop :=
  Relation.ReflTransGen group.Alters

/-- Of both fields the same is read. -/
inductive Agrees (group : Group) (name : String) : Option Json → Option Json → Prop where
  | refl (field : Option Json) : Agrees group name field field
  | inner {value other : Json} (h : group.Inner name value other) :
    Agrees group name (some value) (some other)
  | missing {value : Json} (h : group.IsDefault name value) : Agrees group name (some value) none

/-- Of the fields with these names the same is read. -/
inductive AgreeAll (group : Group) :
    List String → List (Option Json) → List (Option Json) → Prop where
  | nil : AgreeAll group [] [] []
  | cons {name : String} {field other : Option Json} {names : List String}
    {fields others : List (Option Json)} (h : group.Agrees name field other)
    (hmore : AgreeAll group names fields others) :
    AgreeAll group (name :: names) (field :: fields) (other :: others)

variable {group : Group} {name : String} {names : List String} {value other : Json}

/-- The same is read of fields that agree. -/
theorem Agrees.orElse_eq {α : Type} {read : Json → Option α} {missing : α}
    {field change : Option Json} (h : group.Agrees name field change)
    (hinner : ∀ {value other}, group.Inner name value other → read value = read other)
    (hdefault : ∀ {value}, group.IsDefault name value → read value = some missing) :
    orElse read missing field = orElse read missing change := by
  cases h with
  | refl => rfl
  | inner h => exact hinner h
  | missing h => exact hdefault h

theorem rel_only?_refl (values : List Json) :
    Option.Rel (group.Agrees name) (only? values) (only? values) := by
  cases only? values with
  | none => exact .none
  | some field => exact .some (.refl field)

/-- A change of an object leaves a field of the group that agrees. -/
theorem Alters.rel_only? {members others : List (List Char × Json)}
    (h : group.Alters (.object members) (.object others)) (hknown : name ∈ group.names) :
    Option.Rel (group.Agrees name) (only? (valuesOf name members))
      (only? (valuesOf name others)) := by
  cases h with
  | reorder h =>
    have hperm : (valuesOf name members).Perm (valuesOf name others) := (h.filter _).map _
    rw [only?_perm hperm]
    exact rel_only?_refl _
  | @drop before after written dropped value hname honce hdefault =>
    obtain ⟨hbefore, hafter⟩ := List.forall_mem_append.1 honce
    by_cases heq : dropped = name
    · subst heq
      rw [valuesOf_append, valuesOf_append, valuesOf_cons_of_eq hname, valuesOf_eq_nil hbefore,
        valuesOf_eq_nil hafter]
      exact .some (.missing hdefault)
    · rw [valuesOf_append, valuesOf_append, valuesOf_cons_of_ne (ne_of_unescape hname heq)]
      exact rel_only?_refl _
  | @add before after written added value _ hname hunknown =>
    have hne : added ≠ name := fun heq => hunknown (heq ▸ hknown)
    rw [valuesOf_append, valuesOf_append, valuesOf_cons_of_ne (ne_of_unescape hname hne)]
    exact rel_only?_refl _
  | @within before after written changed value other hname hinner =>
    by_cases heq : changed = name
    · subst heq
      rw [valuesOf_append, valuesOf_append, valuesOf_cons_of_eq hname, valuesOf_cons_of_eq hname]
      -- If the field is not the only one of its name, it is refused before and after the change.
      rcases valuesOf changed before with _ | ⟨first, more⟩
      · rcases valuesOf changed after with _ | ⟨second, more⟩
        · exact .some (.inner hinner)
        · exact .none
      · rw [only?_append_cons, only?_append_cons]
        exact .none
    · rw [valuesOf_append, valuesOf_append, valuesOf_cons_of_ne (ne_of_unescape hname heq),
        valuesOf_cons_of_ne (ne_of_unescape hname heq)]
      exact rel_only?_refl _

/-- A change keeps it whether the names of an object stand for texts. -/
theorem Alters.readable_iff {members others : List (List Char × Json)}
    (h : group.Alters (.object members) (.object others)) : Readable members ↔ Readable others := by
  cases h with
  | reorder h => exact forall_congr' fun member => by rw [h.mem_iff]
  | drop hname | add _ hname | within hname =>
    simp only [Readable, List.forall_mem_append, List.forall_mem_cons, hname, Option.isSome_some,
      true_and]

/-- If the same is read under each of the names, the same is read under all of them. -/
theorem rel_mapM {field other : String → Option (Option Json)}
    (h : ∀ name ∈ names, Option.Rel (group.Agrees name) (field name) (other name)) :
    Option.Rel (group.AgreeAll names) (names.mapM field) (names.mapM other) := by
  induction names with
  | nil => exact .some .nil
  | cons name names ih =>
    obtain ⟨hname, hnames⟩ := List.forall_mem_cons.1 h
    have hmore := ih hnames
    rw [List.mapM_cons, List.mapM_cons]
    generalize field name = first, other name = change at hname ⊢
    generalize names.mapM field = fields, names.mapM other = others at hmore ⊢
    cases hname with
    | none => exact .none
    | some hname =>
      cases hmore with
      | none => exact .none
      | some hmore => exact .some (.cons hname hmore)

theorem agreeAll_refl {fields : List (Option Json)} (h : names.length = fields.length) :
    group.AgreeAll names fields fields := by
  induction names generalizing fields with
  | nil =>
    rw [List.length_eq_zero_iff.1 h.symm]
    exact .nil
  | cons name names ih =>
    obtain ⟨field, fields, rfl⟩ := List.exists_cons_of_length_eq_add_one h.symm
    exact .cons (.refl field) (ih (Nat.succ.inj h))

/-- Fields in a row agree where one of them is changed. -/
theorem agreeAll_at {before after : List (Option Json)} {field change : Option Json}
    (hlength : names.length = (before ++ field :: after).length)
    (hname : names[before.length]? = some name) (h : group.Agrees name field change) :
    group.AgreeAll names (before ++ field :: after) (before ++ change :: after) := by
  induction before generalizing names with
  | nil =>
    obtain ⟨first, names, rfl⟩ := List.exists_cons_of_length_eq_add_one hlength
    obtain rfl := Option.some.inj hname
    exact .cons h (agreeAll_refl (Nat.succ.inj hlength))
  | cons earlier before ih =>
    obtain ⟨first, names, rfl⟩ := List.exists_cons_of_length_eq_add_one hlength
    exact .cons (.refl earlier) (ih (Nat.succ.inj hlength) hname)

theorem Alters.agreeAll_object {members others : List (List Char × Json)}
    (h : group.Alters (.object members) (.object others)) :
    Option.Rel (group.AgreeAll group.names) (fields? group.names (.object members))
      (fields? group.names (.object others)) := by
  by_cases hreadable : Readable members
  · rw [fields?_object_of_readable hreadable,
      fields?_object_of_readable (h.readable_iff.1 hreadable)]
    exact rel_mapM fun name hname => h.rel_only? hname
  · rw [fields?_object_of_not_readable hreadable,
      fields?_object_of_not_readable (mt h.readable_iff.2 hreadable)]
    exact .none

/-- A change leaves fields that agree. -/
theorem Alters.agreeAll_fields? (h : group.Alters value other) :
    Option.Rel (group.AgreeAll group.names) (fields? group.names value)
      (fields? group.names other) := by
  cases h with
  | reorder h => exact agreeAll_object (.reorder h)
  | drop hname honce hdefault => exact agreeAll_object (.drop hname honce hdefault)
  | add hwritten hname hunknown h => exact agreeAll_object (.add hwritten hname hunknown h)
  | within hname hinner => exact agreeAll_object (.within hname hinner)
  | @element before after name value other hname hinner =>
    have hlength : (before ++ value :: after).length = (before ++ other :: after).length := by
      rw [List.length_append, List.length_append, List.length_cons, List.length_cons]
    rw [fields?, fields?, ← hlength]
    split_ifs with hle
    · simp only [List.map_append, List.map_cons, List.append_assoc, List.cons_append]
      refine .some (agreeAll_at ?_ ?_ (.inner hinner))
      · simp only [List.length_append, List.length_cons, List.length_map, List.length_replicate]
          at hle ⊢
        omega
      · rw [List.length_map]
        exact hname
    · exact .none

/-- The first field is there in an array with elements. -/
theorem isSome_of_fields?_array {elements : List Json} (hne : elements ≠ []) {field : Option Json}
    {fields : List (Option Json)} (h : fields? names (.array elements) = some (field :: fields)) :
    field.isSome := by
  obtain ⟨element, elements, rfl⟩ := List.exists_cons_of_ne_nil hne
  rw [fields?] at h
  split_ifs at h
  obtain ⟨rfl, -⟩ := List.cons.inj (Option.some.inj h)
  rfl

/-- A change leaves what is read of a group with one field. -/
theorem Alters.single_eq {α : Type} {read : Json → Option α} {missing : α}
    (h : group.Alters value other) (hnames : group.names = [name])
    (hinner : ∀ {value other}, group.Inner name value other → read value = read other)
    (hdefault : ∀ {value}, group.IsDefault name value → read value = some missing) :
    (do
      match ← fields? [name] value with
      | [field] => orElse read missing field
      | _ => none) =
    (do
      match ← fields? [name] other with
      | [field] => orElse read missing field
      | _ => none) := by
  have hfields := h.agreeAll_fields?
  rw [hnames] at hfields
  generalize fields? [name] value = fields, fields? [name] other = others at hfields ⊢
  obtain hfields | - := hfields
  · obtain _ | ⟨hfield, _ | _⟩ := hfields
    exact hfield.orElse_eq hinner hdefault
  · rfl

/-! ### Changed values as texts -/

/-- A changed value can be written as well, and nests no deeper. -/
theorem Alters.fits {depth : Nat} (h : group.Alters value other) (hfits : Fits depth value)
    (hinner : ∀ {name value other depth}, group.Inner name value other → Fits depth value →
      Fits depth other) : Fits depth other := by
  -- Each change leaves all members but one, or puts them in another order.
  cases h with
  | reorder h =>
    cases hfits with
    | object hnames hfits =>
      exact .object (fun member hmember => hnames member (h.mem_iff.2 hmember))
        fun member hmember => hfits member (h.mem_iff.2 hmember)
  | drop =>
    cases hfits with
    | object hnames hfits =>
      rw [List.forall_mem_append, List.forall_mem_cons] at hnames hfits
      exact .object (List.forall_mem_append.2 ⟨hnames.1, hnames.2.2⟩)
        (List.forall_mem_append.2 ⟨hfits.1, hfits.2.2⟩)
  | add hwritten _ _ hscalar =>
    cases hfits with
    | object hnames hfits =>
      rw [List.forall_mem_append] at hnames hfits
      exact .object
        (List.forall_mem_append.2 ⟨hnames.1, List.forall_mem_cons.2 ⟨hwritten, hnames.2⟩⟩)
        (List.forall_mem_append.2 ⟨hfits.1, List.forall_mem_cons.2 ⟨hscalar.fits, hfits.2⟩⟩)
  | within _ h =>
    cases hfits with
    | object hnames hfits =>
      rw [List.forall_mem_append, List.forall_mem_cons] at hnames hfits
      exact .object (List.forall_mem_append.2 ⟨hnames.1, List.forall_mem_cons.2 hnames.2⟩)
        (List.forall_mem_append.2 ⟨hfits.1, List.forall_mem_cons.2 ⟨hinner h hfits.2.1, hfits.2.2⟩⟩)
  | element _ h =>
    cases hfits with
    | array hfits =>
      rw [List.forall_mem_append, List.forall_mem_cons] at hfits
      exact .array
        (List.forall_mem_append.2 ⟨hfits.1, List.forall_mem_cons.2 ⟨hinner h hfits.2.1, hfits.2.2⟩⟩)

end Group

end Bundler.Json

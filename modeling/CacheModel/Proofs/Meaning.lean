import CacheModel.Proofs.Levels

/-!
# What a description says

Descriptions are read in one pass, member by member or item by item, and a description that has
been read in part is carried along.  What a value describes can be said without any order: each
key stands there at most once and is a known one, each level that is given is what its value
means, and what is not given is left out.

The two agree.  Reading a member settles one field and leaves the others as they were; from this
one step it follows what a run over all members comes to, and an object and an array are then two
ways to hand over the same list of keys and values.
-/

namespace CacheModel.Description

/-! ## Fields -/

theorem readBoolean_eq_ok_iff {node : Json.Node} {b : Bool} :
    readBoolean node = .ok b ↔ node = .boolean b := by
  cases node <;> simp [readBoolean]

/-- The key under which a field is given. -/
def Field.key : Field → String
  | .icache => "icache"
  | .dcache => "dcache"
  | .l2 => "l2"
  | .logMisses => "log_misses"

/-- What the value of a field says about a description. -/
def Field.Means (value : Json.Node) (d : Description) : Field → Prop
  | .icache => Level value d.icache
  | .dcache => Level value d.dcache
  | .l2 => Level value d.l2
  | .logMisses => value = .boolean d.logMisses

/-- Two descriptions have the same in a field. -/
def Field.Agrees (d d' : Description) : Field → Prop
  | .icache => d.icache = d'.icache
  | .dcache => d.dcache = d'.dcache
  | .l2 => d.l2 = d'.l2
  | .logMisses => d.logMisses = d'.logMisses

/-- The first description with one field taken from the second. -/
def Field.settle (d d' : Description) : Field → Description
  | .icache => { d with icache := d'.icache }
  | .dcache => { d with dcache := d'.dcache }
  | .l2 => { d with l2 := d'.l2 }
  | .logMisses => { d with logMisses := d'.logMisses }

theorem map_key_all : Field.all.map Field.key = knownKeys := rfl

theorem Field.mem_all (field : Field) : field ∈ Field.all := by
  cases field <;> decide

theorem Field.key_injective : Function.Injective Field.key := by
  intro field field' h
  cases field <;> cases field' <;> simp_all [Field.key]

theorem mem_knownKeys_iff {key : String} : key ∈ knownKeys ↔ ∃ field : Field, field.key = key := by
  rw [← map_key_all, List.mem_map]
  exact ⟨fun ⟨field, _, h⟩ => ⟨field, h⟩, fun ⟨field, h⟩ => ⟨field, field.mem_all, h⟩⟩

theorem ofKey?_eq_some_iff {key : String} {field : Field} :
    Field.ofKey? key = some field ↔ key = field.key := by
  have hpairs : knownKeys.zip Field.all = Field.all.map fun field => (field.key, field) := rfl
  rw [Field.ofKey?, ← mem_iff_lookup (by decide), hpairs, List.mem_map]
  constructor
  · rintro ⟨field', -, heq⟩
    obtain ⟨rfl, rfl⟩ := Prod.mk.injEq .. ▸ heq
    rfl
  · rintro rfl
    exact ⟨field, field.mem_all, rfl⟩

section

variable {d d' d'' : Description} {field other : Field}

theorem Field.Agrees.symm (h : field.Agrees d d') : field.Agrees d' d := by
  cases field <;> exact Eq.symm h

theorem Field.Agrees.trans (h : field.Agrees d d') (h' : field.Agrees d' d'') :
    field.Agrees d d'' := by
  cases field <;> exact Eq.trans h h'

theorem eq_of_agrees (h : ∀ field : Field, field.Agrees d d') : d = d' := by
  obtain ⟨icache, dcache, l2, logMisses⟩ := d
  obtain rfl : icache = d'.icache := h .icache
  obtain rfl : dcache = d'.dcache := h .dcache
  obtain rfl : l2 = d'.l2 := h .l2
  obtain rfl : logMisses = d'.logMisses := h .logMisses
  rfl

theorem Field.agrees_settle (d d' : Description) (field : Field) :
    field.Agrees (field.settle d d') d' := by
  cases field <;> rfl

theorem Field.agrees_settle_of_ne (d d' : Description) (h : other ≠ field) :
    other.Agrees d (field.settle d d') := by
  cases field <;> cases other <;> first | rfl | exact absurd rfl h

theorem Field.settle_eq_iff :
    field.settle d d' = d' ↔ ∀ other, other ≠ field → Field.Agrees d d' other := by
  constructor
  · intro h other hne
    have hsettled := Field.agrees_settle_of_ne d d' hne
    rwa [h] at hsettled
  · intro h
    refine eq_of_agrees fun other => ?_
    by_cases heq : other = field
    · exact heq ▸ Field.agrees_settle d d' field
    · exact (Field.agrees_settle_of_ne d d' heq).symm.trans (h other heq)

/-- What a value says about a description concerns its own field only. -/
theorem Field.Means.congr {value : Json.Node} (hagrees : field.Agrees d d')
    (h : field.Means value d) : field.Means value d' := by
  cases field <;> simp only [Agrees, Means] at hagrees h ⊢ <;> rwa [← hagrees]

/-- Reading a field settles it and leaves all others as they were. -/
theorem readField_eq_ok_iff {value : Json.Node} :
    readField d field value = .ok d' ↔
      value.fault? = none ∧ field.Means value d' ∧
        ∀ other, other ≠ field → Field.Agrees d d' other := by
  rw [← Field.settle_eq_iff]
  cases field with
  | icache | dcache | l2 =>
    simp only [readField, map_eq_ok_iff, readOptionalLevel_eq_ok_iff]
    exact ⟨fun ⟨_, ⟨hfault, h⟩, heq⟩ => heq ▸ ⟨hfault, h, rfl⟩,
      fun ⟨hfault, h, heq⟩ => ⟨_, ⟨hfault, h⟩, heq⟩⟩
  | logMisses =>
    simp only [readField, map_eq_ok_iff, readBoolean_eq_ok_iff]
    exact ⟨fun ⟨_, h, heq⟩ => heq ▸ h ▸ ⟨rfl, rfl, rfl⟩, fun ⟨_, h, heq⟩ => ⟨_, h, heq⟩⟩

end

/-! ## Runs over fields -/

/-- Reads the values of several fields into a description, one after the other. -/
def readFields (d : Description) : List (Field × Json.Node) → Except Error Description
  | [] => .ok d
  | (field, value) :: rest => do
    let d ← readField d field value
    readFields d rest

/-- A run over different fields settles each of them as its value says, whatever the order, and
leaves the others as they were. -/
theorem readFields_eq_ok_iff {d d' : Description} {pairs : List (Field × Json.Node)}
    (hnodup : (pairs.map Prod.fst).Nodup) :
    readFields d pairs = .ok d' ↔
      (∀ pair ∈ pairs, pair.2.fault? = none) ∧
        (∀ field value, (field, value) ∈ pairs → field.Means value d') ∧
        ∀ field, field ∉ pairs.map Prod.fst → field.Agrees d d' := by
  induction pairs generalizing d with
  | nil =>
    simp only [readFields, Except.ok.injEq, List.not_mem_nil, List.map_nil, not_false_eq_true,
      false_implies, implies_true, true_and, forall_const]
    exact ⟨fun h field => h ▸ by cases field <;> rfl, eq_of_agrees⟩
  | cons pair rest ih =>
    obtain ⟨field, value⟩ := pair
    obtain ⟨hnew, hrest⟩ := List.nodup_cons.mp (List.map_cons ▸ hnodup)
    simp only [readFields, bind_eq_ok_iff, readField_eq_ok_iff, ih hrest]
    constructor
    · rintro ⟨d₁, ⟨hfault, hmeans, hothers⟩, hfaults, hgiven, homitted⟩
      refine ⟨?_, ?_, ?_⟩
      · simpa using ⟨hfault, by simpa using hfaults⟩
      · intro field' value' hmem
        rcases List.mem_cons.mp hmem with heq | hmem
        · obtain ⟨rfl, rfl⟩ := Prod.mk.injEq .. ▸ heq
          exact hmeans.congr (homitted _ hnew)
        · exact hgiven field' value' hmem
      · intro field' hfield'
        rw [List.map_cons, List.mem_cons, not_or] at hfield'
        exact (hothers field' hfield'.1).trans (homitted field' hfield'.2)
    · rintro ⟨hfaults, hgiven, homitted⟩
      have hhere := hgiven field value List.mem_cons_self
      refine ⟨field.settle d d', ⟨hfaults _ List.mem_cons_self, ?_, ?_⟩, ?_, ?_, ?_⟩
      · exact hhere.congr (field.agrees_settle d d').symm
      · exact fun other hne => Field.agrees_settle_of_ne d d' hne
      · exact fun pair hmem => hfaults pair (List.mem_cons_of_mem _ hmem)
      · exact fun field' value' hmem => hgiven field' value' (List.mem_cons_of_mem _ hmem)
      · intro field' hfield'
        by_cases heq : field' = field
        · exact heq ▸ field.agrees_settle d d'
        · refine (Field.agrees_settle_of_ne d d' heq).symm.trans (homitted field' ?_)
          rw [List.map_cons, List.mem_cons, not_or]
          exact ⟨heq, hfield'⟩

/-- The members of a description are read as a run over the fields that their keys name, none of
which may come twice. -/
theorem readMembers_eq_ok_iff {seen : List Field} {d d' : Description} {members : Json.Members} :
    readMembers seen d members = .ok d' ↔
      members.fault? = none ∧ ∃ pairs : List (Field × Json.Node),
        members.toList = pairs.map (fun pair => (pair.1.key, pair.2)) ∧
        (pairs.map Prod.fst).Nodup ∧ (∀ field ∈ pairs.map Prod.fst, field ∉ seen) ∧
        readFields d pairs = .ok d' := by
  fun_induction readMembers seen d members with
  | case1 seen d =>
    refine ⟨fun h => ⟨rfl, [], rfl, List.nodup_nil, by simp, h⟩, ?_⟩
    rintro ⟨-, pairs, hpairs, -, -, h⟩
    obtain rfl := List.map_eq_nil_iff.mp hpairs.symm
    exact h
  | case2 | case3 => simp [Json.Members.fault?]
  | case4 seen d key value rest hunknown =>
    constructor
    · intro h
      cases h
    · rintro ⟨-, pairs, hpairs, -⟩
      obtain ⟨⟨field, value'⟩, pairs', -, heq, -⟩ := List.map_eq_cons_iff.mp hpairs.symm
      rw [ofKey?_eq_some_iff.mpr (Prod.mk.inj heq).1.symm] at hunknown
      cases hunknown
  | case5 seen d key value rest field hkey hseen =>
    constructor
    · intro h
      cases h
    · rintro ⟨-, pairs, hpairs, -, hnew, -⟩
      obtain ⟨⟨field', value'⟩, pairs', rfl, heq, -⟩ := List.map_eq_cons_iff.mp hpairs.symm
      obtain rfl : field' = field :=
        Field.key_injective ((Prod.mk.inj heq).1.trans (ofKey?_eq_some_iff.mp hkey))
      exact absurd hseen (hnew field' (by simp))
  | case6 seen d key value rest field hkey hseen ih =>
    obtain rfl := ofKey?_eq_some_iff.mp hkey
    simp only [bind_eq_ok_iff, ih, Json.Members.fault?_member_eq_none_iff, Json.Members.toList]
    constructor
    · rintro ⟨d₁, hfield, hfault, pairs, hpairs, hnodup, hnew, hrun⟩
      have hother : field ∉ pairs.map Prod.fst := fun hmem => hnew field hmem List.mem_cons_self
      refine ⟨⟨(readField_eq_ok_iff.mp hfield).1, hfault⟩, (field, value) :: pairs, ?_, ?_, ?_, ?_⟩
      · rw [hpairs, List.map_cons]
      · rw [List.map_cons, List.nodup_cons]
        exact ⟨hother, hnodup⟩
      · rw [List.map_cons, List.forall_mem_cons]
        exact ⟨hseen, fun field' hmem => mt (List.mem_cons_of_mem _) (hnew field' hmem)⟩
      · exact bind_eq_ok_iff.mpr ⟨d₁, hfield, hrun⟩
    · rintro ⟨⟨-, hfault⟩, pairs, hpairs, hnodup, hnew, hrun⟩
      obtain ⟨⟨field', value'⟩, pairs', rfl, heq, hrest⟩ := List.map_eq_cons_iff.mp hpairs.symm
      obtain ⟨hsame, rfl⟩ := Prod.mk.inj heq
      obtain rfl := Field.key_injective hsame
      rw [List.map_cons, List.nodup_cons] at hnodup
      rw [List.map_cons, List.forall_mem_cons] at hnew
      obtain ⟨d₁, hfield, hrun⟩ := bind_eq_ok_iff.mp hrun
      refine ⟨d₁, hfield, hfault, pairs', hrest.symm, hnodup.2, fun other hmem => ?_, hrun⟩
      rw [List.mem_cons, not_or]
      exact ⟨fun heq => hnodup.1 (heq ▸ hmem), hnew.2 other hmem⟩

/-- The items of a description are read as a run over the fields in their order. -/
theorem readItems_eq_ok_iff {fields : List Field} {d d' : Description} {items : Json.Items} :
    readItems fields d items = .ok d' ↔
      items.fault? = none ∧ items.toList.length ≤ fields.length ∧
        readFields d (fields.zip items.toList) = .ok d' := by
  fun_induction readItems fields d items with
  | case1 => simp [Json.Items.fault?, Json.Items.toList, readFields]
  | case2 | case3 => simp [Json.Items.fault?]
  | case4 => simp [Json.Items.toList]
  | case5 d value rest field fields ih =>
    simp only [bind_eq_ok_iff, ih, Json.Items.fault?_item_eq_none_iff, Json.Items.toList,
      List.zip_cons_cons, readFields, List.length_cons, Nat.add_le_add_iff_right]
    constructor
    · rintro ⟨d₁, hfield, hfault, hlength, hrun⟩
      exact ⟨⟨(readField_eq_ok_iff.mp hfield).1, hfault⟩, hlength, d₁, hfield, hrun⟩
    · rintro ⟨⟨-, hfault⟩, hlength, d₁, hfield, hrun⟩
      exact ⟨d₁, hfield, hfault, hlength, hrun⟩

/-! ## Descriptions -/

/-- The values that a node gives, each under its key: an object gives its members, and an array of
at most four items gives them in the order of the keys. -/
inductive Gives : Json.Node → List (String × Json.Node) → Prop
  | object (members : Json.Members) : Gives (.object members) members.toList
  | array {items : Json.Items} (h : items.toList.length ≤ knownKeys.length) :
    Gives (.array items) (knownKeys.zip items.toList)

/-- The values describe the hierarchy.  All keys are known and different, each value that is given
means what the description has in its field, and the fields that are not given are as in the empty
description. -/
structure Describes (values : List (String × Json.Node)) (d : Description) : Prop where
  nodup : (values.map Prod.fst).Nodup
  known : ∀ key ∈ values.map Prod.fst, key ∈ knownKeys
  given : ∀ (field : Field) (value : Json.Node), (field.key, value) ∈ values → field.Means value d
  omitted : ∀ field : Field, field.key ∉ values.map Prod.fst → field.Agrees empty d

/-- A field with its value, under the key of the field. -/
def keyed (pair : Field × Json.Node) : String × Json.Node := (pair.1.key, pair.2)

theorem keyed_injective : Function.Injective keyed := by
  rintro ⟨field, value⟩ ⟨field', value'⟩ h
  obtain ⟨hkey, rfl⟩ := Prod.mk.inj h
  obtain rfl : field = field' := Field.key_injective hkey
  rfl

theorem map_fst_keyed (pairs : List (Field × Json.Node)) :
    (pairs.map keyed).map Prod.fst = (pairs.map Prod.fst).map Field.key := by
  rw [List.map_map, List.map_map]
  rfl

theorem exists_keyed {values : List (String × Json.Node)}
    (h : ∀ key ∈ values.map Prod.fst, key ∈ knownKeys) :
    ∃ pairs : List (Field × Json.Node), values = pairs.map keyed := by
  induction values with
  | nil => exact ⟨[], rfl⟩
  | cons entry rest ih =>
    rw [List.map_cons, List.forall_mem_cons, mem_knownKeys_iff] at h
    obtain ⟨⟨field, hkey⟩, hrest⟩ := h
    obtain ⟨pairs, rfl⟩ := ih hrest
    exact ⟨(field, entry.2) :: pairs, by rw [List.map_cons, keyed, hkey]⟩

/-- Fields that are given under their keys describe what a run over them comes to. -/
theorem describes_keyed_iff {pairs : List (Field × Json.Node)} {d : Description}
    (hnodup : (pairs.map Prod.fst).Nodup) :
    readFields empty pairs = .ok d ↔
      (∀ pair ∈ pairs, pair.2.fault? = none) ∧ Describes (pairs.map keyed) d := by
  rw [readFields_eq_ok_iff hnodup, and_congr_right_iff]
  intro _
  have hmem : ∀ field : Field, field.key ∈ (pairs.map keyed).map Prod.fst ↔
      field ∈ pairs.map Prod.fst := fun field => by
    rw [map_fst_keyed, List.mem_map_of_injective Field.key_injective]
  have hpair : ∀ (field : Field) value, (field.key, value) ∈ pairs.map keyed ↔
      (field, value) ∈ pairs := fun field value =>
    List.mem_map_of_injective keyed_injective (a := (field, value))
  constructor
  · rintro ⟨hgiven, homitted⟩
    refine ⟨?_, ?_, fun field value h => hgiven field value ((hpair field value).mp h),
      fun field h => homitted field (mt (hmem field).mpr h)⟩
    · rw [map_fst_keyed]
      exact hnodup.map Field.key_injective
    · rw [map_fst_keyed]
      rintro key hkey
      obtain ⟨field, -, rfl⟩ := List.mem_map.mp hkey
      exact mem_knownKeys_iff.mpr ⟨field, rfl⟩
  · rintro ⟨-, -, hgiven, homitted⟩
    exact ⟨fun field value h => hgiven field value ((hpair field value).mpr h),
      fun field h => homitted field (mt (hmem field).mp h)⟩

theorem readMembers_empty_eq_ok_iff {members : Json.Members} {d : Description} :
    readMembers [] empty members = .ok d ↔
      members.fault? = none ∧ Describes members.toList d := by
  rw [readMembers_eq_ok_iff, and_congr_right_iff]
  intro hfault
  constructor
  · rintro ⟨pairs, hpairs, hnodup, -, hrun⟩
    rw [hpairs]
    exact ((describes_keyed_iff hnodup).mp hrun).2
  · intro h
    obtain ⟨pairs, hpairs⟩ := exists_keyed h.known
    have hnodup : (pairs.map Prod.fst).Nodup := by
      have hkeys := h.nodup
      rw [hpairs, map_fst_keyed] at hkeys
      exact hkeys.of_map _
    refine ⟨pairs, hpairs, hnodup, by simp, (describes_keyed_iff hnodup).mpr ⟨?_, hpairs ▸ h⟩⟩
    intro pair hmem
    have hkeyed : keyed pair ∈ members.toList := hpairs ▸ List.mem_map_of_mem hmem
    exact Json.Members.fault?_of_mem hfault hkeyed

theorem readItems_empty_eq_ok_iff {items : Json.Items} {d : Description} :
    readItems Field.all empty items = .ok d ↔
      items.fault? = none ∧ items.toList.length ≤ knownKeys.length ∧
        Describes (knownKeys.zip items.toList) d := by
  rw [readItems_eq_ok_iff, and_congr_right_iff]
  intro hfault
  have hnodup : ((Field.all.zip items.toList).map Prod.fst).Nodup := by
    rw [List.zip_eq_zip_take_min, List.map_fst_zip (by simp)]
    exact (List.take_sublist _ _).nodup (by decide)
  have hkeyed : knownKeys.zip items.toList = (Field.all.zip items.toList).map keyed := by
    rw [← map_key_all, List.zip_map_left]
    rfl
  have hfaults : ∀ pair ∈ Field.all.zip items.toList, pair.2.fault? = none := fun pair hmem =>
    Json.Items.fault?_of_mem hfault (List.of_mem_zip hmem).2
  rw [describes_keyed_iff hnodup, ← hkeyed, and_iff_right hfaults, ← map_key_all, List.length_map]

/-- A value is read as a description exactly if nothing in it is broken and what it gives describes
the hierarchy. -/
theorem readNode_eq_ok_iff {node : Json.Node} {d : Description} :
    readNode node = .ok d ↔
      node.fault? = none ∧ ∃ values, Gives node values ∧ Describes values d := by
  constructor
  · intro h
    unfold readNode at h
    split at h
    · obtain ⟨hfault, h⟩ := readMembers_empty_eq_ok_iff.mp h
      exact ⟨hfault, _, .object _, h⟩
    · obtain ⟨hfault, hlength, h⟩ := readItems_empty_eq_ok_iff.mp h
      exact ⟨hfault, _, .array hlength, h⟩
    · cases h
    · cases h
  · rintro ⟨hfault, values, hgives, h⟩
    cases hgives with
    | object members => exact readMembers_empty_eq_ok_iff.mpr ⟨hfault, h⟩
    | array hlength => exact readItems_empty_eq_ok_iff.mpr ⟨hfault, hlength, h⟩

/-! ## Possible shapes and other orders -/

/-- Every level that is described has a possible shape. -/
structure Possible (d : Description) : Prop where
  icache : ∀ g, d.icache = some g → g.Valid
  dcache : ∀ g, d.dcache = some g → g.Valid
  l2 : ∀ g, d.l2 = some g → g.Valid

theorem possible_empty : empty.Possible := ⟨nofun, nofun, nofun⟩

theorem Describes.possible {values : List (String × Json.Node)} {d : Description}
    (h : Describes values d) : d.Possible := by
  have hfield : ∀ (field : Field) {level : Option Geometry},
      (∀ value, field.Means value d → Level value level) → (field.Agrees empty d → level = none) →
      ∀ g, level = some g → g.Valid := by
    rintro field level hmeans hagrees g rfl
    by_cases hkey : field.key ∈ values.map Prod.fst
    · obtain ⟨⟨_, value⟩, hmem, rfl⟩ := List.mem_map.mp hkey
      exact (hmeans value (h.given field value hmem)).valid
    · cases hagrees (h.omitted field hkey)
  exact ⟨hfield .icache (fun _ => id) Eq.symm, hfield .dcache (fun _ => id) Eq.symm,
    hfield .l2 (fun _ => id) Eq.symm⟩

/-- The same values under the same keys in any order, also inside each value. -/
def Rearranged (values values' : List (String × Json.Node)) : Prop :=
  ∃ middle, values.Perm middle ∧
    List.Forall₂ (fun entry entry' => entry.1 = entry'.1 ∧ Shuffled entry.2 entry'.2) middle values'

theorem Field.Means.shuffled {field : Field} {node node' : Json.Node} {d : Description}
    (hshuffled : Shuffled node node') (h : field.Means node d) : field.Means node' d := by
  cases field with
  | icache | dcache | l2 => exact Level.shuffled hshuffled h
  | logMisses =>
    obtain rfl : node = .boolean d.logMisses := h
    cases hshuffled
    rfl

/-- The order of members plays no part in what is described. -/
theorem Describes.rearranged {values values' : List (String × Json.Node)} {d : Description}
    (hvalues : Rearranged values values') (h : Describes values d) : Describes values' d := by
  obtain ⟨middle, hperm, hsame⟩ := hvalues
  have hkeys : middle.map Prod.fst = values'.map Prod.fst := by
    rw [← List.forall₂_eq_eq_eq, List.forall₂_map_left_iff, List.forall₂_map_right_iff]
    exact hsame.imp fun _ _ => And.left
  have hkeysPerm : (values.map Prod.fst).Perm (values'.map Prod.fst) := hkeys ▸ hperm.map Prod.fst
  refine ⟨hkeysPerm.nodup_iff.mp h.nodup, fun key hkey => h.known key (hkeysPerm.mem_iff.mpr hkey),
    fun field value' hmem => ?_, fun field hnot => h.omitted field (mt hkeysPerm.mem_iff.mp hnot)⟩
  obtain ⟨⟨key, value⟩, hmem', hkey, hshuffled⟩ : ∃ entry ∈ middle,
      entry.1 = field.key ∧ Shuffled entry.2 value' := by
    obtain ⟨i, hi, hget⟩ := List.getElem_of_mem hmem
    have hlt : i < middle.length := hsame.length_eq ▸ hi
    have hentry := hsame.get hlt hi
    simp only [List.get_eq_getElem, hget] at hentry
    exact ⟨_, List.getElem_mem hlt, hentry⟩
  obtain rfl : key = field.key := hkey
  exact (h.given field value (hperm.mem_iff.mpr hmem')).shuffled hshuffled

end CacheModel.Description

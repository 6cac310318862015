import Mathlib
import CacheModel.Description
import CacheModel.Proofs.GeometryText
import CacheModel.Proofs.Json.Node
import CacheModel.Proofs.Stages
import CacheModel.Proofs.Store

/-!
# What a level says

One level of a hierarchy is described by null, by a geometry text, or by an object that spells the
shape out.  In an object each key that matters stands once, or at most once, and the order of the
members plays no part.  A level is read exactly if its value stands for it, and the shape of a
level that is there is possible.
-/

namespace CacheModel

namespace Description

/-! ## What a value means -/

/-- The key stands among the members once, and this is its value. -/
def Once (members : List (String × Json.Node)) (key : String) (value : Json.Node) : Prop :=
  (members.map Prod.fst).count key = 1 ∧ (key, value) ∈ members

/-- The value names the policy: as a text, or as the only key of an object, with null behind it. -/
inductive NamesPolicy : Json.Node → Policy → Prop
  | text {name : String} {policy : Policy} (h : (name, policy) ∈ policyNames) :
    NamesPolicy (.text name) policy
  | object {name : String} {policy : Policy} (h : (name, policy) ∈ policyNames) :
    NamesPolicy (.object (.member name .null .closed)) policy

/-- The members spell the shape out.  Each of the three numbers stands there once, as a natural
number that fits a word; the policy may be left out; members with other keys do not count. -/
structure SpellsOut (members : List (String × Json.Node)) (g : Geometry) : Prop where
  sets : Once members "sets" (.number (.natural g.sets))
  ways : Once members "ways" (.number (.natural g.ways))
  lineBytes : Once members "line_bytes" (.number (.natural g.lineBytes))
  policy : ("policy" ∉ members.map Prod.fst ∧ g.policy = .random) ∨
    ∃ value, Once members "policy" value ∧ NamesPolicy value g.policy

/-- The value stands for the level: null for none, a geometry text, or an object that spells out a
possible shape. -/
inductive Level : Json.Node → Option Geometry → Prop
  | absent : Level .null none
  | text {text : String} {g : Geometry} (h : Geometry.parse text = .ok g) :
    Level (.text text) (some g)
  | object {members : Json.Members} {g : Geometry} (h : SpellsOut members.toList g)
      (hvalid : g.Valid) : Level (.object members) (some g)

theorem Level.valid {node : Json.Node} {g : Geometry} (h : Level node (some g)) : g.Valid := by
  cases h with
  | text h => exact Geometry.valid_of_parse h
  | object h hvalid => exact hvalid

section

variable {members : List (String × Json.Node)} {key : String} {value : Json.Node}

theorem filter_key_eq_nil_iff :
    members.filter (fun member => member.1 == key) = [] ↔ key ∉ members.map Prod.fst := by
  rw [List.filter_eq_nil_iff, List.mem_map, not_exists]
  simp only [beq_iff_eq, not_and]

/-- The members with a key that stands there once. -/
theorem filter_key_eq_singleton_iff :
    members.filter (fun member => member.1 == key) = [(key, value)] ↔ Once members key value := by
  have hcount : (members.map Prod.fst).count key =
      (members.filter fun member => member.1 == key).length := by
    rw [List.count, List.countP_map, List.countP_eq_length_filter]
    rfl
  rw [Once, hcount, List.length_eq_one_iff]
  constructor
  · intro h
    refine ⟨⟨_, h⟩, (List.mem_filter (p := fun member => member.1 == key)).mp ?_ |>.1⟩
    rw [h]
    exact List.mem_singleton_self _
  · rintro ⟨⟨member, h⟩, hmem⟩
    have hkept : (key, value) ∈ members.filter fun member => member.1 == key :=
      List.mem_filter.mpr ⟨hmem, beq_self_eq_true key⟩
    rw [h, List.mem_singleton] at hkept
    rw [h, hkept]

theorem fst_of_filter_key_eq {member : String × Json.Node} {rest : List (String × Json.Node)}
    (h : members.filter (fun member => member.1 == key) = member :: rest) : member.1 = key := by
  have hmem : member ∈ members.filter fun member => member.1 == key := by simp [h]
  exact beq_iff_eq.mp (List.mem_filter.mp hmem).2

theorem only?_eq_some_iff : only? members key = some value ↔ Once members key value := by
  rw [← filter_key_eq_singleton_iff, only?]
  constructor
  · intro h
    split at h
    · next heq =>
      obtain rfl := fst_of_filter_key_eq heq
      rw [heq, Option.some.inj h]
    · cases h
  · intro h
    rw [h]

theorem onlyNatural?_eq_some_iff {n : ℕ} :
    onlyNatural? members key = some n ↔ Once members key (.number (.natural n)) := by
  rw [← only?_eq_some_iff, onlyNatural?]
  constructor
  · intro h
    split at h
    · next heq => rw [heq, Option.some.inj h]
    · cases h
  · intro h
    rw [h]

end

theorem policyOfNode?_eq_some_iff {node : Json.Node} {policy : Policy} :
    policyOfNode? node = some policy ↔ NamesPolicy node policy := by
  have hnames : ∀ name, policyNames.lookup name = some policy ↔ (name, policy) ∈ policyNames :=
    fun name => (mem_iff_lookup (by decide)).symm
  constructor
  · intro h
    unfold policyOfNode? at h
    split at h
    · exact .text ((hnames _).mp h)
    · exact .object ((hnames _).mp h)
    · cases h
  · intro h
    cases h with
    | text h => exact (hnames _).mpr h
    | object h => exact (hnames _).mpr h

section

variable {members : List (String × Json.Node)}

theorem policyOfMembers?_eq_some_iff {policy : Policy} :
    policyOfMembers? members = some policy ↔
      ("policy" ∉ members.map Prod.fst ∧ policy = .random) ∨
        ∃ value, Once members "policy" value ∧ NamesPolicy value policy := by
  simp only [← filter_key_eq_nil_iff, ← filter_key_eq_singleton_iff, ← policyOfNode?_eq_some_iff,
    policyOfMembers?]
  constructor
  · intro h
    split at h
    · next heq => exact .inl ⟨heq, (Option.some.inj h).symm⟩
    · next key value heq =>
      obtain rfl : key = "policy" := fst_of_filter_key_eq heq
      exact .inr ⟨value, heq, h⟩
    · cases h
  · rintro (⟨heq, rfl⟩ | ⟨value, heq, h⟩)
    · rw [heq]
    · rw [heq]
      exact h

theorem shapeOfMembers?_eq_some_iff {g : Geometry} :
    shapeOfMembers? members = some g ↔ SpellsOut members g := by
  obtain ⟨sets, ways, lineBytes, policy⟩ := g
  have hparts : SpellsOut members ⟨sets, ways, lineBytes, policy⟩ ↔
      onlyNatural? members "sets" = some sets ∧ onlyNatural? members "ways" = some ways ∧
        onlyNatural? members "line_bytes" = some lineBytes ∧
        policyOfMembers? members = some policy := by
    simp only [onlyNatural?_eq_some_iff, policyOfMembers?_eq_some_iff]
    exact ⟨fun h => ⟨h.sets, h.ways, h.lineBytes, h.policy⟩,
      fun ⟨hsets, hways, hline, hpolicy⟩ => ⟨hsets, hways, hline, hpolicy⟩⟩
  rw [hparts, shapeOfMembers?]
  simp only [Option.bind_eq_bind, Option.bind_eq_some_iff, Option.pure_def, Option.some.injEq,
    Geometry.mk.injEq]
  constructor
  · rintro ⟨_, hsets, _, hways, _, hline, _, hpolicy, rfl, rfl, rfl, rfl⟩
    exact ⟨hsets, hways, hline, hpolicy⟩
  · rintro ⟨hsets, hways, hline, hpolicy⟩
    exact ⟨_, hsets, _, hways, _, hline, _, hpolicy, rfl, rfl, rfl, rfl⟩

end

theorem check_eq_ok_iff {shape g : Geometry} : shape.check = .ok g ↔ shape = g ∧ g.Valid := by
  constructor
  · intro h
    obtain ⟨rfl, hvalid⟩ := Geometry.valid_of_check h
    exact ⟨rfl, hvalid⟩
  · rintro ⟨rfl, hvalid⟩
    exact Geometry.check_of_valid hvalid

theorem judgeLevel_eq_ok_iff {node : Json.Node} {g : Geometry} :
    judgeLevel node = .ok g ↔ Level node (some g) := by
  constructor
  · intro h
    unfold judgeLevel at h
    split at h
    · exact .text (mapError_eq_ok_iff.mp h)
    · split at h
      · next hshape =>
        obtain ⟨rfl, hvalid⟩ := check_eq_ok_iff.mp (mapError_eq_ok_iff.mp h)
        exact .object (shapeOfMembers?_eq_some_iff.mp hshape) hvalid
      · cases h
    · cases h
  · intro h
    cases h with
    | text h => exact mapError_eq_ok_iff.mpr h
    | object h hvalid =>
      rw [judgeLevel, shapeOfMembers?_eq_some_iff.mpr h]
      exact mapError_eq_ok_iff.mpr (check_eq_ok_iff.mpr ⟨rfl, hvalid⟩)

theorem readLevel_eq_ok_iff {node : Json.Node} {g : Geometry} :
    readLevel node = .ok g ↔ node.fault? = none ∧ Level node (some g) := by
  rw [readLevel]
  split
  · next fault hfault => simp [hfault]
  · next hfault => rw [mapError_eq_ok_iff, judgeLevel_eq_ok_iff, and_iff_right hfault]

theorem readOptionalLevel_eq_ok_iff {node : Json.Node} {level : Option Geometry} :
    readOptionalLevel node = .ok level ↔ node.fault? = none ∧ Level node level := by
  rw [readOptionalLevel.eq_def]
  split
  · constructor
    · intro h
      obtain rfl := Except.ok.inj h
      exact ⟨rfl, .absent⟩
    · rintro ⟨-, h⟩
      cases h
      rfl
  · next hnull =>
    rw [map_eq_ok_iff]
    simp only [readLevel_eq_ok_iff]
    constructor
    · rintro ⟨g, h, rfl⟩
      exact h
    · rintro ⟨hfault, h⟩
      cases level with
      | none =>
        cases h
        exact absurd rfl hnull
      | some g => exact ⟨g, ⟨hfault, h⟩, rfl⟩

/-! ## Members in another order -/

/-- The values are the same, but for the order of members in objects. -/
inductive Shuffled : Json.Node → Json.Node → Prop
  | same (node : Json.Node) : Shuffled node node
  | object {members members' : Json.Members} (h : members.toList.Perm members'.toList) :
    Shuffled (.object members) (.object members')

theorem Once.perm {members members' : List (String × Json.Node)} {key : String}
    {value : Json.Node} (hperm : members.Perm members') (h : Once members key value) :
    Once members' key value :=
  ⟨(hperm.map Prod.fst).count_eq key ▸ h.1, hperm.mem_iff.mp h.2⟩

theorem SpellsOut.perm {members members' : List (String × Json.Node)} {g : Geometry}
    (hperm : members.Perm members') (h : SpellsOut members g) : SpellsOut members' g where
  sets := h.sets.perm hperm
  ways := h.ways.perm hperm
  lineBytes := h.lineBytes.perm hperm
  policy := h.policy.imp (And.imp_left (mt (hperm.map Prod.fst).mem_iff.mpr))
    fun ⟨value, honce, hnames⟩ => ⟨value, honce.perm hperm, hnames⟩

theorem Level.shuffled {node node' : Json.Node} {level : Option Geometry}
    (hshuffled : Shuffled node node') (h : Level node level) : Level node' level := by
  cases hshuffled with
  | same => exact h
  | object hperm =>
    cases h with
    | object hspells hvalid => exact .object (hspells.perm hperm) hvalid

end Description

end CacheModel

import Mathlib
import CacheModel.Proofs.Soundness

/-!
# How many lines are held

A request leaves a line at the place that it went to and empties no place.  So the number of lines
never falls, and it grows by one exactly when a missing line goes to an empty place; a cache in
which every place holds a line stays full for ever.

A cache on a map fills up before it replaces anything: the way that a missing line goes to is empty
until all of them are taken.
-/

namespace CacheModel

namespace Cache

/-- The sets and ways at which a line is held. -/
def heldPlaces (c : Cache) : Finset (ℕ × ℕ) :=
  (Finset.range c.geometry.sets ×ˢ Finset.range c.geometry.ways).filter fun place =>
    (c.store.line place.1 place.2).valid

/-- A request brings in a line at a place that was empty. -/
def occupies (c : Cache) (r : Request) : Bool :=
  !c.contains r.address && !(c.lineFor r.address).valid

theorem mem_heldPlaces {c : Cache} {set way : ℕ} :
    (set, way) ∈ c.heldPlaces ↔ (set < c.geometry.sets ∧ way < c.geometry.ways) ∧
      (c.store.line set way).valid = true := by
  simp [heldPlaces]

/-- A set is full if it holds as many lines as it has ways. -/
theorem length_linesIn_eq_iff (c : Cache) (set : ℕ) :
    (c.store.linesIn c.geometry.ways set).length = c.geometry.ways ↔
      ∀ way < c.geometry.ways, (c.store.line set way).valid = true := by
  conv_lhs => rhs; rw [← TagStore.length_places c.geometry.ways set c.store]
  rw [TagStore.linesIn, List.length_filter_eq_length_iff]
  simp [TagStore.places]

theorem card_heldPlaces_le (c : Cache) :
    c.heldPlaces.card ≤ c.geometry.sets * c.geometry.ways :=
  (Finset.card_filter_le _ _).trans_eq (by simp)

section

variable {c : Cache} (h : c.Sound)
include h

theorem Sound.residentLines_eq_card : c.residentLines = c.heldPlaces.card := by
  rw [residentLines, h.store.resident_eq, heldPlaces, Finset.card_filter, Finset.sum_product]
  apply Finset.sum_congr rfl
  intro set _
  rw [TagStore.linesIn, TagStore.places, List.filter_map, List.length_map,
    ← List.countP_eq_length_filter, ← Finset.card_filter, Finset.card_def]
  simp [Finset.filter_val, Multiset.range, List.countP_eq_length_filter, Function.comp_def]

theorem Sound.residentLines_le : c.residentLines ≤ c.geometry.sets * c.geometry.ways :=
  h.residentLines_eq_card.trans_le c.card_heldPlaces_le

/-- A request leaves a line at the place that it went to, and all others where they were. -/
theorem Sound.heldPlaces_access (r : Request) :
    (c.access r).cache.heldPlaces =
      insert (c.setOf r.address, (c.access r).outcome.way) c.heldPlaces := by
  ext ⟨set, way⟩
  rw [Finset.mem_insert, mem_heldPlaces, mem_heldPlaces, geometry_access, Prod.mk.injEq]
  constructor
  · rintro ⟨⟨hset, hway⟩, hvalid⟩
    rw [h.line_access r hset hway] at hvalid
    split at hvalid
    · next heq => exact .inl heq
    · exact .inr ⟨⟨hset, hway⟩, hvalid⟩
  · rintro (⟨rfl, rfl⟩ | ⟨⟨hset, hway⟩, hvalid⟩)
    · refine ⟨⟨h.setOf_lt _, h.way_outcome_lt r⟩, ?_⟩
      rw [h.line_access r (h.setOf_lt _) (h.way_outcome_lt r), if_pos ⟨rfl, rfl⟩]
      rfl
    · refine ⟨⟨hset, hway⟩, ?_⟩
      rw [h.line_access r hset hway]
      split
      · rfl
      · exact hvalid

/-- The place of a request was empty before only if the request occupies it. -/
theorem Sound.mem_heldPlaces_outcome_iff (r : Request) :
    (c.setOf r.address, (c.access r).outcome.way) ∈ c.heldPlaces ↔ c.occupies r = false := by
  rw [mem_heldPlaces, and_iff_right ⟨h.setOf_lt _, h.way_outcome_lt r⟩, occupies, contains]
  cases hfind : c.find r.address with
  | some way =>
    rw [outcome_eq_hit_iff.mpr hfind]
    have hholds := (h.find_iff.mp hfind).2
    simpa [Outcome.way] using (Line.holds_iff.mp hholds).1
  | none =>
    rw [outcome_eq_miss_iff.mpr ⟨hfind, rfl, rfl⟩]
    simp [Outcome.way, lineFor]

/-- The number of lines grows by one when a line comes to an empty place, and never changes
otherwise. -/
theorem Sound.residentLines_access (r : Request) :
    (c.access r).cache.residentLines = c.residentLines + if c.occupies r then 1 else 0 := by
  have hplace := h.mem_heldPlaces_outcome_iff r
  rw [(h.access r).residentLines_eq_card, h.residentLines_eq_card, h.heldPlaces_access]
  by_cases hnew : c.occupies r = true
  · have hempty := mt hplace.mp (by simp [hnew])
    rw [Finset.card_insert_of_notMem hempty, if_pos hnew]
  · rw [Finset.insert_eq_self.mpr (hplace.mpr (by simpa using hnew)), if_neg hnew, Nat.add_zero]

theorem Sound.residentLines_le_after (rs : List Request) :
    c.residentLines ≤ (c.after rs).residentLines := by
  induction rs generalizing c with
  | nil => exact le_rfl
  | cons r rs ih =>
    have hstep := h.residentLines_access r
    have hrest := ih (h.access r)
    rw [after_cons]
    omega

/-- A cache that is full stays full. -/
theorem Sound.residentLines_after_of_full
    (hfull : c.residentLines = c.geometry.sets * c.geometry.ways) (rs : List Request) :
    (c.after rs).residentLines = c.residentLines := by
  apply le_antisymm _ (h.residentLines_le_after rs)
  rw [hfull, ← geometry_after c rs]
  exact (h.after rs).residentLines_le

end

theorem Built.residentLines_eq_zero {c : Cache} (h : c.Built) : c.residentLines = 0 := by
  rw [h.sound.residentLines_eq_card, Finset.card_eq_zero, Finset.eq_empty_iff_forall_notMem]
  rintro ⟨set, way⟩ hplace
  rw [mem_heldPlaces, h.line_eq] at hplace
  cases hplace.2

/-! ## Caches on a map -/

/-- A request does not change how the lines are kept. -/
@[simp] theorem kind_access (c : Cache) (r : Request) :
    (c.access r).cache.store.kind = c.store.kind := by
  cases hfind : c.find r.address with
  | some way =>
    rw [store_access_of_hit hfind]
    split <;> simp
  | none =>
    rw [store_access_of_miss hfind]
    split <;> simp

@[simp] theorem kind_after (c : Cache) (rs : List Request) :
    (c.after rs).store.kind = c.store.kind := by
  induction rs generalizing c with
  | nil => rfl
  | cons r rs ih => rw [after_cons, ih, kind_access]

theorem exists_array_of_kind {c : Cache} (h : c.store.kind = .array) :
    ∃ s, c.store = .array s := by
  cases hstore : c.store with
  | array s => exact ⟨s, rfl⟩
  | map s =>
    rw [hstore] at h
    cases h

theorem exists_map_of_kind {c : Cache} (h : c.store.kind = .map) : ∃ s, c.store = .map s := by
  cases hstore : c.store with
  | array s =>
    rw [hstore] at h
    cases h
  | map s => exact ⟨s, rfl⟩

section

variable {c : Cache} (h : c.Sound) {s : MapStore} (hstore : c.store = .map s)
include h hstore

theorem Sound.sets_eq_one : c.geometry.sets = 1 := by
  have hsound := h.store
  rw [hstore] at hsound
  exact hsound.1

theorem Sound.map_sound : s.Sound c.geometry.ways := by
  have hsound := h.store
  rw [hstore] at hsound
  exact hsound.2

theorem Sound.residentLines_eq_size : c.residentLines = s.lines.size := by
  rw [residentLines, hstore]
  exact (h.map_sound hstore).resident_eq

theorem Sound.isFull_iff : s.isFull = true ↔ c.residentLines = c.geometry.ways := by
  have hsound := h.map_sound hstore
  have hle := hsound.size_le
  rw [MapStore.isFull, hsound.ways_eq, decide_eq_true_iff, h.residentLines_eq_size hstore]
  omega

/-- A map with room offers its next place, which is empty. -/
theorem Sound.wayFor_of_room (hroom : c.residentLines ≠ c.geometry.ways) (a : UInt64) :
    c.wayFor a = c.residentLines := by
  have hfull : s.isFull = false := Bool.eq_false_iff.mpr (mt (h.isFull_iff hstore).mp hroom)
  rw [wayFor, hstore, TagStore.victimize, hfull, h.residentLines_eq_size hstore]
  rfl

/-- A missing line replaces another one only when all ways are taken. -/
theorem Sound.valid_lineFor_iff_full (a : UInt64) :
    (c.lineFor a).valid = true ↔ c.residentLines = c.geometry.ways := by
  have hsize := h.residentLines_eq_size hstore
  have hline : c.lineFor a = s.line (c.wayFor a) := by rw [lineFor, hstore]; rfl
  rw [hline]
  constructor
  · intro hvalid
    by_contra hroom
    rw [h.wayFor_of_room hstore hroom, hsize, MapStore.line_of_size_le le_rfl] at hvalid
    cases hvalid
  · intro hfull
    have hlt := (h.offers_wayFor a).lt
    exact (h.map_sound hstore).valid (by omega)

end

end Cache

end CacheModel

import Mathlib
import CacheModel.Hierarchy
import CacheModel.Proofs.Decomposition
import CacheModel.Proofs.Stages

/-!
# Room for hierarchies

Whether there is room for a cache depends on the number of its lines alone.  An array takes sixteen
bytes for a line.  A map takes as much for a line, and more for finding it: an index keeps one
place in eight free, and the number of its places doubles as it grows.  The stamps of an ordered
policy are shorter than the lines, so that they never decide.

A hierarchy is made exactly if it can be built and there is room for each of its levels.  If it can
be built and there is no room, the program does not refuse it but stops.
-/

namespace CacheModel

/-! ## Room for one cache -/

theorem indexPlaces_eq {tags : ℕ} (h : 8 ≤ tags) :
    indexPlaces tags = 2 ^ ((tags * 8 / 7 - 1).log2 + 1) := by
  rw [indexPlaces, if_neg (by omega), if_neg (by omega)]
  rfl

/-- The longest index that there is room for has `2 ^ 58` places. -/
theorem indexBytes_le_iff {tags : ℕ} : indexBytes tags ≤ maxBytes ↔ tags ≤ 7 * 2 ^ 55 := by
  rw [indexBytes, maxBytes]
  by_cases hfew : tags < 8
  · have hplaces : indexPlaces tags ≤ 8 := by
      rw [indexPlaces]
      split <;> simp_all
    omega
  · have hne : tags * 8 / 7 - 1 ≠ 0 := by omega
    have hlog := Nat.log2_lt hne (k := 58)
    rw [indexPlaces_eq (not_lt.mp hfew)]
    constructor
    · intro hle
      by_contra hmany
      have hlarge : 2 ^ 59 ≤ 2 ^ ((tags * 8 / 7 - 1).log2 + 1) :=
        Nat.pow_le_pow_right two_pos (by omega)
      omega
    · intro hle
      have hsmall : 2 ^ ((tags * 8 / 7 - 1).log2 + 1) ≤ 2 ^ 58 :=
        Nat.pow_le_pow_right two_pos (by omega)
      omega

namespace Geometry

/-- There is room for the lines. -/
def HasRoom (g : Geometry) : Prop :=
  if g.isFullyAssociative then g.ways ≤ 7 * 2 ^ 55 else g.sets * g.ways < 2 ^ 59

instance (g : Geometry) : Decidable g.HasRoom :=
  inferInstanceAs (Decidable (if g.isFullyAssociative then g.ways ≤ _ else g.sets * g.ways < _))

variable {g : Geometry}

theorem canBeMade_iff {tableBytes : List ℕ} :
    canBeMade tableBytes = true ↔ ∀ bytes ∈ tableBytes, bytes ≤ maxBytes := by
  simp only [canBeMade, List.all_eq_true, decide_eq_true_eq]

/-- The stamps, if there are any, are shorter than a table of all lines. -/
theorem fits_iff {kind : StoreKind}
    (hlines : g.sets * g.ways * lineRecordBytes ∈ TagStore.tableBytes kind g.sets g.ways) :
    g.fits kind = true ↔
      ∀ bytes ∈ TagStore.tableBytes kind g.sets g.ways, bytes ≤ maxBytes := by
  rw [fits, canBeMade_iff, List.forall_mem_append]
  refine and_iff_left_of_imp fun hstore bytes hbytes => ?_
  have hlines := hstore _ hlines
  rw [Replacement.tableBytes] at hbytes
  split at hbytes
  · rw [List.mem_singleton.mp hbytes]
    rw [lineRecordBytes] at hlines
    rw [stampBytes]
    omega
  · cases hbytes

theorem fits_array_iff : g.fits .array = true ↔ g.sets * g.ways < 2 ^ 59 := by
  rw [fits_iff (List.mem_singleton_self _), TagStore.tableBytes, List.forall_mem_singleton,
    lineRecordBytes, maxBytes]
  omega

theorem fits_map_iff (hsets : g.sets = 1) : g.fits .map = true ↔ g.ways ≤ 7 * 2 ^ 55 := by
  have hlines : g.sets * g.ways * lineRecordBytes ∈ TagStore.tableBytes .map g.sets g.ways := by
    simp [TagStore.tableBytes, hsets]
  rw [fits_iff hlines, TagStore.tableBytes, List.forall_mem_cons, List.forall_mem_singleton,
    indexBytes_le_iff, lineRecordBytes, maxBytes]
  omega

theorem fits_storeKind_iff : g.fits g.storeKind = true ↔ g.HasRoom := by
  rw [storeKind, HasRoom]
  split
  · next hfull =>
    have hsets : g.sets = 1 := by
      simp only [isFullyAssociative, Bool.and_eq_true, beq_iff_eq] at hfull
      exact hfull.1
    exact fits_map_iff hsets
  · exact fits_array_iff

theorem obstacle?_of_valid (h : g.Valid) (kind : StoreKind) :
    g.obstacle? kind = if g.fits kind then none else some .capacityOverflow := by
  rw [obstacle?, show g.fault? = none from h]

theorem obstacle?_eq_none_iff {kind : StoreKind} :
    g.obstacle? kind = none ↔ g.Valid ∧ g.fits kind = true := by
  rw [obstacle?, Valid]
  cases g.fault? with
  | some error => simp
  | none => simp

end Geometry

theorem Cache.make_eq_ok_iff {kind : StoreKind} {g : Geometry} {name : String} {source : Source}
    {c : Cache} :
    make kind g name source = .ok c ↔
      buildWith kind g name source = .ok c ∧ g.fits kind = true := by
  have hmake : make kind g name source = .ok c ↔
      g.obstacle? kind = none ∧ buildWith kind g name source = .ok c := by
    rw [make]
    cases g.obstacle? kind <;> simp [mapError_eq_ok_iff]
  rw [hmake, Geometry.obstacle?_eq_none_iff]
  constructor
  · rintro ⟨⟨-, hfits⟩, hbuild⟩
    exact ⟨hbuild, hfits⟩
  · rintro ⟨hbuild, hfits⟩
    exact ⟨⟨(eq_fresh_of_buildWith hbuild).1, hfits⟩, hbuild⟩

/-! ## Room for all levels -/

/-- There is room for every level that is described. -/
def Description.HasRoom (d : Description) : Prop :=
  ∀ level ∈ [d.icache, d.dcache, d.l2], ∀ g ∈ level, g.HasRoom

instance (d : Description) : Decidable d.HasRoom :=
  inferInstanceAs (Decidable (∀ _ ∈ _, _))

namespace Hierarchy

theorem obstacle?_eq_none_iff {level : Option Geometry} :
    obstacle? level = none ↔ ∀ g ∈ level, g.Valid ∧ g.HasRoom := by
  cases level with
  | none => simp [obstacle?]
  | some g => simp [obstacle?, Geometry.obstacle?_eq_none_iff, Geometry.fits_storeKind_iff]

/-- Each level of a hierarchy that can be built has a possible shape. -/
theorem valid_of_build {d : Description} {h : Hierarchy} (hbuild : build d = .ok h) :
    ∀ level ∈ [d.icache, d.dcache, d.l2], ∀ g ∈ level, g.Valid := by
  obtain ⟨first, second, hfirst, hsecond, -⟩ := eq_ofSides_of_build hbuild
  have hstands : ∀ {name level cache}, Stands name level cache → ∀ g ∈ level, g.Valid := by
    rintro name level cache (_ | ⟨hcache⟩) g ⟨⟩
    exact (Cache.eq_fresh_of_buildWith hcache).1
  simp only [List.mem_cons, List.not_mem_nil, or_false, forall_eq_or_imp, forall_eq]
  exact ⟨hstands (hfirst .instruction), hstands (hfirst .data), hstands hsecond⟩

section

variable {d : Description}

theorem make_eq_ok_iff {h : Hierarchy} : make d = .ok h ↔ build d = .ok h ∧ d.HasRoom := by
  have hfree : [d.icache, d.dcache, d.l2].findSome? obstacle? = none ↔
      (∀ level ∈ [d.icache, d.dcache, d.l2], ∀ g ∈ level, g.Valid) ∧ d.HasRoom := by
    rw [List.findSome?_eq_none_iff]
    simp only [obstacle?_eq_none_iff, forall_and, Description.HasRoom]
  have hmake : make d = .ok h ↔
      [d.icache, d.dcache, d.l2].findSome? obstacle? = none ∧ build d = .ok h := by
    rw [make]
    cases [d.icache, d.dcache, d.l2].findSome? obstacle? <;> simp [mapError_eq_ok_iff]
  rw [hmake, hfree]
  constructor
  · rintro ⟨⟨-, hroom⟩, hbuild⟩
    exact ⟨hbuild, hroom⟩
  · rintro ⟨hbuild, hroom⟩
    exact ⟨⟨valid_of_build hbuild, hroom⟩, hbuild⟩

/-- Without room the program stops, although no shape is refused. -/
theorem make_eq_error_of_valid
    (hvalid : ∀ level ∈ [d.icache, d.dcache, d.l2], ∀ g ∈ level, g.Valid) (hroom : ¬ d.HasRoom) :
    make d = .error .capacityOverflow := by
  rw [make]
  cases hobstacle : [d.icache, d.dcache, d.l2].findSome? obstacle? with
  | none =>
    refine absurd (fun level hlevel g hg => ?_) hroom
    exact (obstacle?_eq_none_iff.mp (List.findSome?_eq_none_iff.mp hobstacle level hlevel) g hg).2
  | some obstacle =>
    obtain ⟨level, hlevel, hfirst⟩ := List.exists_of_findSome?_eq_some hobstacle
    obtain ⟨g, rfl, hlevels⟩ := Option.bind_eq_some_iff.mp hfirst
    rw [Geometry.obstacle?_of_valid (hvalid _ hlevel g rfl)] at hlevels
    split at hlevels
    · cases hlevels
    · cases hlevels
      rfl

end

end Hierarchy

end CacheModel

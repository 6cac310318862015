import Mathlib
import CacheModel.Proofs.Occupancy

/-!
# Stores in order

Neither kind of store checks what it is told to install.  An array takes a line at any way of any
set, whether or not the set holds its tag already; a map keeps its lines and its index apart and
renews them one after the other.  That both are in order after every run rests on how a cache uses
them: it looks a line up before it brings it in, and brings it in at the way that was chosen for its
own set.

Soundness is what a request preserves, and what holds of the places of a store follows from it.  One
thing does not: that a place without a line is not dirty.  A request leaves a line at the only place
that it writes to, so this is preserved as well.
-/

namespace CacheModel

/-- What can be relied on in an array of lines: it has a place for every way of every set, a line
lies in the set that its tag belongs to, no set holds a tag twice, and only lines are dirty. -/
structure ArrayStore.Intact (s : ArrayStore) (g : Geometry) : Prop where
  ways_eq : s.ways = g.ways
  size_eq : s.lines.size = g.sets * g.ways
  tag_lt : ∀ set < g.sets, ∀ way < g.ways, (s.line set way).valid = true →
    (s.line set way).tag.toNat < 2 ^ 64 / g.lineBytes
  decode_eq : ∀ set < g.sets, ∀ way < g.ways, (s.line set way).valid = true →
    g.addresses.decode (g.addresses.lineAddress (s.line set way).tag) =
      (set, (s.line set way).tag)
  unique : ∀ set < g.sets, ∀ way < g.ways, ∀ way' < g.ways, (s.line set way).valid = true →
    (s.line set way').valid = true → (s.line set way).tag = (s.line set way').tag → way = way'
  valid_of_dirty : ∀ set < g.sets, ∀ way < g.ways, (s.line set way).dirty = true →
    (s.line set way).valid = true

/-- What can be relied on in lines with an index: there are no more lines than ways, all of them
valid and no two with the same tag, and the index consists of their tags and places. -/
structure MapStore.Intact (s : MapStore) (ways : ℕ) : Prop where
  size_le : s.lines.size ≤ ways
  valid : ∀ line ∈ s.lines, line.valid = true
  nodup : (s.lines.toList.map Line.tag).Nodup
  find_iff : ∀ tag way, s.index.find tag = some way ↔ (s.lines[way]?).map Line.tag = some tag
  index_perm : s.index.Perm (s.lines.toList.map Line.tag).zipIdx

namespace Cache

/-! ## Dirty places -/

/-- Every place that is dirty holds a line. -/
def DirtyHeld (c : Cache) : Prop :=
  ∀ set < c.geometry.sets, ∀ way < c.geometry.ways, (c.store.line set way).dirty = true →
    (c.store.line set way).valid = true

theorem Built.dirtyHeld {c : Cache} (h : c.Built) : c.DirtyHeld := by
  intro set _ way _
  rw [h.line_eq]
  exact nofun

theorem DirtyHeld.access {c : Cache} (hdirty : c.DirtyHeld) (h : c.Sound) (r : Request) :
    (c.access r).cache.DirtyHeld := by
  intro set hset way hway
  rw [geometry_access] at hset hway
  rw [h.line_access r hset hway]
  split
  · exact fun _ => rfl
  · exact hdirty set hset way hway

theorem DirtyHeld.after {c : Cache} (hdirty : c.DirtyHeld) (h : c.Sound) (rs : List Request) :
    (c.after rs).DirtyHeld := by
  induction rs generalizing c with
  | nil => exact hdirty
  | cons r rs ih => exact ih (hdirty.access h r) (h.access r)

/-! ## Stores of sound caches -/

section

variable {c : Cache} (h : c.Sound)
include h

/-- A line lies in the set that the first address of the line belongs to. -/
theorem Sound.decode_lineAddress {set way : ℕ} (hset : set < c.geometry.sets)
    (hway : way < c.geometry.ways) (hvalid : (c.store.line set way).valid = true) :
    c.geometry.addresses.decode (c.geometry.addresses.lineAddress (c.store.line set way).tag) =
      (set, (c.store.line set way).tag) := by
  obtain ⟨a, hhome, htag⟩ := h.home hset hway hvalid
  rw [← htag, ← hhome, tagOf, setOf, AddressMap.decode_snd, AddressMap.decode_fst,
    h.valid.lineAddress_tag, AddressMap.decode, h.valid.tag_lineBase]

theorem Sound.array_intact {s : ArrayStore} (hstore : c.store = .array s)
    (hdirty : c.DirtyHeld) : s.Intact c.geometry := by
  have hline : ∀ set way, c.store.line set way = s.line set way := by
    rw [hstore]
    exact fun _ _ => rfl
  have hsound : s.Sound c.geometry.sets c.geometry.ways := by
    have hstored := h.store
    rwa [hstore] at hstored
  refine ⟨hsound.ways_eq, hsound.size_eq, ?_, ?_, ?_, ?_⟩
  · intro set hset way hway
    rw [← hline]
    intro hvalid
    obtain ⟨a, -, htag⟩ := h.home hset hway hvalid
    exact htag ▸ h.valid.toNat_tag_lt a
  · intro set hset way hway
    rw [← hline]
    exact h.decode_lineAddress hset hway
  · intro set hset way hway way' hway' hvalid hvalid' htag
    exact hsound.unique hset hway hway' (Line.holds_iff.mpr ⟨hvalid, rfl⟩)
      (Line.holds_iff.mpr ⟨hvalid', htag.symm⟩)
  · intro set hset way hway
    rw [← hline]
    exact hdirty set hset way hway

/-- A line is found at the one way of its set that holds it. -/
theorem Sound.find_iff_unique (a : UInt64) (way : ℕ) :
    c.find a = some way ↔ way < c.geometry.ways ∧
      (c.store.line (c.setOf a) way).holds (c.tagOf a) = true ∧
      ∀ way' < c.geometry.ways,
        (c.store.line (c.setOf a) way').holds (c.tagOf a) = true → way' = way := by
  rw [h.find_iff]
  refine and_congr_right fun hway => (and_iff_left_of_imp fun hholds => ?_).symm
  exact fun way' hway' hholds' => h.store.holds_unique (h.setOf_lt a) hway' hway hholds' hholds

end

end Cache

theorem MapStore.Sound.intact {s : MapStore} {ways : ℕ} (h : s.Sound ways) : s.Intact ways where
  size_le := h.size_le
  valid := by
    rw [Array.forall_mem_iff_forall_getElem]
    intro way hway
    simpa [MapStore.line, hway] using h.valid hway
  nodup := h.nodup_map_tag
  find_iff tag way := by
    rw [← TagIndex.mem_iff_find h.keys_nodup, h.index_perm.mem_iff,
      List.mk_mem_zipIdx_iff_getElem?, List.getElem?_map, Array.getElem?_toList]
  index_perm := h.index_perm

namespace Cache

/-- **An array stays in order.**  After any run of any new cache with an array, the array is intact,
and a line is found at a way if and only if that is the one way of its set that holds it. -/
theorem array_intact_after {c : Cache} (h : c.Built) (hkind : c.store.kind = .array)
    (rs : List Request) :
    ∃ s, (c.after rs).store = .array s ∧ s.Intact c.geometry ∧
      ∀ a way, (c.after rs).find a = some way ↔ way < c.geometry.ways ∧
        (s.line (c.setOf a) way).holds (c.tagOf a) = true ∧
        ∀ way' < c.geometry.ways,
          (s.line (c.setOf a) way').holds (c.tagOf a) = true → way' = way := by
  have hsound := h.sound.after rs
  obtain ⟨s, hstore⟩ := exists_array_of_kind (c := c.after rs) (by rw [kind_after, hkind])
  have hintact := hsound.array_intact hstore (h.dirtyHeld.after h.sound rs)
  rw [geometry_after] at hintact
  refine ⟨s, hstore, hintact, fun a way => ?_⟩
  have hfind := hsound.find_iff_unique a way
  rwa [hstore, geometry_after, setOf_after, tagOf_after] at hfind

/-- Two sets of two ways and draws that all name the first way: a line is replaced while the other
way of its set is still empty. -/
theorem array_intact_after_random :
    let c := fresh .array ⟨2, 2, 8, .random⟩ "L1$" (.cycle [0])
    let rs : List Request := [⟨0, 8, true⟩, ⟨8, 8, true⟩, ⟨16, 8, false⟩]
    buildWith .array ⟨2, 2, 8, .random⟩ "L1$" (.cycle [0]) = .ok c ∧ c.store.kind = .array ∧
      (c.after rs).find 0 = none ∧ (c.after rs).find 16 = some 0 ∧
      ∃ s, (c.after rs).store = .array s ∧ s.Intact ⟨2, 2, 8, .random⟩ ∧
        ∀ way < 2, (s.line 0 way).holds 2 = true → way = 0 := by
  intro c rs
  have hbuild : buildWith .array ⟨2, 2, 8, .random⟩ "L1$" (.cycle [0]) = .ok c := rfl
  have hfound : (c.after rs).find 16 = some 0 := by decide
  obtain ⟨s, hstore, hintact, hfind⟩ := array_intact_after (.setAssociative hbuild) rfl rs
  obtain ⟨-, -, honly⟩ := (hfind 16 0).mp hfound
  rw [show c.setOf 16 = 0 by decide, show c.tagOf 16 = 2 by decide] at honly
  exact ⟨hbuild, rfl, by decide, hfound, s, hstore, hintact, honly⟩

/-- **A map stays in order.**  After any run of any new cache with a map, its lines and its index
are intact, look-ups are exact, and the lines that are counted are the lines that are stored.  Once
there are as many lines as ways, their number never changes again. -/
theorem map_intact_after {c : Cache} (h : c.Built) (hkind : c.store.kind = .map)
    (rs : List Request) :
    ∃ s, (c.after rs).store = .map s ∧ s.Intact c.geometry.ways ∧
      (∀ a way, (c.after rs).find a = some way ↔
        ∃ line, s.lines[way]? = some line ∧ line.holds (c.tagOf a) = true) ∧
      (c.after rs).residentLines = s.lines.size ∧
      (s.lines.size = c.geometry.ways → ∀ later, ∃ s', (c.after (rs ++ later)).store = .map s' ∧
        s'.lines.size = c.geometry.ways) := by
  have hsound := h.sound.after rs
  have hkinds : ∀ rs, (c.after rs).store.kind = .map := fun rs => by rw [kind_after, hkind]
  obtain ⟨s, hstore⟩ := exists_map_of_kind (hkinds rs)
  have hintact := (hsound.map_sound hstore).intact
  have hsize := hsound.residentLines_eq_size hstore
  rw [geometry_after] at hintact
  refine ⟨s, hstore, hintact, fun a way => ?_, hsize, fun hfull later => ?_⟩
  · have hfind : (c.after rs).find a = s.index.find (c.tagOf a) := by
      rw [find, hstore, tagOf_after]
      rfl
    rw [hfind, hintact.find_iff, Option.map_eq_some_iff]
    refine exists_congr fun line => and_congr_right fun hget => ?_
    rw [Line.holds_iff, and_iff_right (hintact.valid line (Array.mem_of_getElem? hget))]
  · obtain ⟨s', hstore'⟩ := exists_map_of_kind (hkinds (rs ++ later))
    have hsets := hsound.sets_eq_one hstore
    have hsize' := (h.sound.after (rs ++ later)).residentLines_eq_size hstore'
    have hlines := hsound.residentLines_after_of_full
      (by rw [hsets, Nat.one_mul, geometry_after, hsize, hfull]) later
    rw [← after_append, hsize', hsize, hfull] at hlines
    exact ⟨s', hstore', hlines⟩

/-- Two ways: the line that the third one replaces leaves the index, and the map stays full. -/
theorem map_intact_after_replacement :
    let c := fresh .map ⟨1, 2, 8, .lru⟩ "F$" default
    let rs : List Request := [⟨0, 8, true⟩, ⟨8, 8, false⟩, ⟨16, 8, false⟩]
    buildWith .map ⟨1, 2, 8, .lru⟩ "F$" default = .ok c ∧ c.store.kind = .map ∧
      (c.after rs).find 0 = none ∧ (c.after rs).find 16 = some 0 ∧
      (c.after rs).residentLines = 2 ∧
      ∃ s, (c.after rs).store = .map s ∧ s.Intact 2 ∧ s.lines.size = 2 ∧
        ∀ later, ∃ s', (c.after (rs ++ later)).store = .map s' ∧ s'.lines.size = 2 := by
  intro c rs
  have hbuild : buildWith .map ⟨1, 2, 8, .lru⟩ "F$" default = .ok c := rfl
  have hcount : (c.after rs).residentLines = 2 := by decide
  obtain ⟨s, hstore, hintact, -, hsize, hfull⟩ :=
    map_intact_after (.fullyAssociative rfl hbuild) rfl rs
  have hlines : s.lines.size = 2 := hsize.symm.trans hcount
  exact ⟨hbuild, rfl, by decide, by decide, hcount, s, hstore, hintact, hlines, hfull hlines⟩

end Cache

end CacheModel

import Mathlib
import CacheModel.Proofs.Tally

/-!
# Sets that hold the same lines

What a cache answers, what it sends down and what it counts for a request depends on the lines of
one set only, and on the way that a missing line goes to.  So two caches with lines of the same
length answer a request alike if the set that it goes to in the one holds the same lines, way by
way, as the set that it goes to in the other, and if both choose the same way for a missing line.
The sets then still hold the same lines.  The caches may differ in all else: in the number of their
sets, in their stores, and in what they remember for replacement.
-/

namespace CacheModel

namespace Cache

/-- The set `i` of one cache and the set `j` of another one hold the same lines at the same ways. -/
structure Alike (c : Cache) (i : ℕ) (d : Cache) (j : ℕ) : Prop where
  sound_left : c.Sound
  sound_right : d.Sound
  set_lt_left : i < c.geometry.sets
  set_lt_right : j < d.geometry.sets
  ways_eq : c.geometry.ways = d.geometry.ways
  lineBytes_eq : c.geometry.lineBytes = d.geometry.lineBytes
  line_eq : ∀ way < c.geometry.ways, c.store.line i way = d.store.line j way

namespace Alike

variable {c d : Cache} {i j : ℕ} (h : c.Alike i d j)
include h

theorem symm : d.Alike j c i where
  sound_left := h.sound_right
  sound_right := h.sound_left
  set_lt_left := h.set_lt_right
  set_lt_right := h.set_lt_left
  ways_eq := h.ways_eq.symm
  lineBytes_eq := h.lineBytes_eq.symm
  line_eq way hway := (h.line_eq way (h.ways_eq ▸ hway)).symm

theorem tagOf_eq (a : UInt64) : c.tagOf a = d.tagOf a :=
  Geometry.tag_eq_of_lineBytes_eq h.lineBytes_eq a

theorem places_eq :
    c.store.places c.geometry.ways i = d.store.places d.geometry.ways j := by
  rw [TagStore.places, TagStore.places, ← h.ways_eq]
  exact List.map_congr_left fun way hway => h.line_eq way (List.mem_range.mp hway)

theorem writeback?_eq (line : Line) : c.writeback? line = d.writeback? line := by
  rw [writeback?, writeback?, lineBytes, lineBytes, h.lineBytes_eq,
    Geometry.lineAddress_eq_of_lineBytes_eq h.lineBytes_eq]

theorem fillRequest_eq (a : UInt64) : c.fillRequest a = d.fillRequest a := by
  rw [fillRequest, fillRequest, lineBytes, lineBytes, h.lineBytes_eq,
    Geometry.lineBase_eq_of_lineBytes_eq h.lineBytes_eq]

/-! ## What can be seen -/

section

variable {a : UInt64} (hi : c.setOf a = i) (hj : d.setOf a = j)
include hi hj

theorem find_eq : c.find a = d.find a := by
  apply Option.ext
  intro way
  rw [h.sound_left.find_iff, h.sound_right.find_iff, hi, hj, ← h.ways_eq, ← h.tagOf_eq]
  apply and_congr_right
  intro hway
  rw [h.line_eq way hway]

theorem contains_eq : c.contains a = d.contains a := by
  rw [contains, contains, h.find_eq hi hj]

theorem isDirty_eq : c.isDirty a = d.isDirty a := by
  rw [isDirty, isDirty, ← h.find_eq hi hj, hi, hj]
  apply Option.map_congr
  intro way hway
  rw [h.line_eq way (h.sound_left.find_iff.mp hway).1]

theorem lineFor_eq (hway : c.wayFor a = d.wayFor a) : c.lineFor a = d.lineFor a := by
  rw [lineFor, lineFor, hi, hj, ← hway]
  exact h.line_eq _ (h.sound_left.offers_wayFor a).lt

end

/-! ## One request -/

section

variable {r : Request} (hi : c.setOf r.address = i) (hj : d.setOf r.address = j)
  (hway : c.find r.address = none → c.wayFor r.address = d.wayFor r.address)
include hi hj hway

/-- A request is answered alike if a missing line goes to the same way. -/
theorem outcome_eq : (c.access r).outcome = (d.access r).outcome := by
  have hsame := h.find_eq hi hj
  cases hfind : c.find r.address with
  | some way => rw [access_of_hit hfind, access_of_hit (hsame ▸ hfind)]
  | none =>
    rw [access_of_miss hfind, access_of_miss (hsame ▸ hfind), hway hfind,
      h.lineFor_eq hi hj (hway hfind)]

theorem forwards_eq : (c.access r).forwards = (d.access r).forwards := by
  have hsame := h.find_eq hi hj
  cases hfind : c.find r.address with
  | some way => rw [forwards_of_hit hfind, forwards_of_hit (hsame ▸ hfind)]
  | none =>
    rw [forwards_of_miss hfind, forwards_of_miss (hsame ▸ hfind), h.writeback?_eq,
      h.fillRequest_eq, h.lineFor_eq hi hj (hway hfind)]

/-- A request causes the same if the caches have one name and both report their misses or both do
not. -/
theorem effects_eq (hname : c.name = d.name) (hlogs : c.logsMisses = d.logsMisses) :
    (c.access r).effects = (d.access r).effects := by
  have hsame := h.find_eq hi hj
  cases hfind : c.find r.address with
  | some way => rw [access_of_hit hfind, access_of_hit (hsame ▸ hfind)]
  | none =>
    rw [access_of_miss hfind, access_of_miss (hsame ▸ hfind)]
    simp only [missEffects, h.writeback?_eq, h.fillRequest_eq, h.lineFor_eq hi hj (hway hfind),
      hname, hlogs]

/-- A request adds the same to every counter. -/
theorem charge_eq (q : Counter) : charge q c r = charge q d r := by
  have hback : c.writesBack r = d.writesBack r := by
    have hsame := h.find_eq hi hj
    cases hfind : c.find r.address with
    | some way =>
      rw [writesBack, writesBack, contains, contains, ← hsame, hfind, Option.isSome_some,
        Bool.not_true, Bool.false_and, Bool.false_and]
    | none =>
      rw [writesBack, writesBack, h.contains_eq hi hj, h.writeback?_eq,
        h.lineFor_eq hi hj (hway hfind)]
  cases q <;> simp only [charge, h.contains_eq hi hj, hback]

theorem counters_access (hcounters : c.counters = d.counters) :
    (c.access r).cache.counters = (d.access r).cache.counters := by
  have hsame := h.find_eq hi hj
  rw [Cache.counters_access, Cache.counters_access, ← hsame, hcounters]
  cases hfind : c.find r.address with
  | some way => rfl
  | none => rw [h.writeback?_eq, h.lineFor_eq hi hj (hway hfind)]

/-- The sets still hold the same lines after the request. -/
theorem access : (c.access r).cache.Alike i (d.access r).cache j where
  sound_left := h.sound_left.access r
  sound_right := h.sound_right.access r
  set_lt_left := by
    rw [geometry_access]
    exact h.set_lt_left
  set_lt_right := by
    rw [geometry_access]
    exact h.set_lt_right
  ways_eq := by rw [geometry_access, geometry_access, h.ways_eq]
  lineBytes_eq := by rw [geometry_access, geometry_access, h.lineBytes_eq]
  line_eq way := by
    rw [geometry_access]
    intro hlt
    rw [h.sound_left.line_access r h.set_lt_left hlt,
      h.sound_right.line_access r h.set_lt_right (h.ways_eq ▸ hlt), hi, hj,
      h.outcome_eq hi hj hway, h.line_eq way hlt, lineAfter, lineAfter, h.tagOf_eq,
      h.isDirty_eq hi hj]
    simp only [true_and]

end

/-- A request to another set of the first cache makes no difference. -/
theorem access_left {r : Request} (hother : c.setOf r.address ≠ i) :
    (c.access r).cache.Alike i d j where
  sound_left := h.sound_left.access r
  sound_right := h.sound_right
  set_lt_left := by
    rw [geometry_access]
    exact h.set_lt_left
  set_lt_right := h.set_lt_right
  ways_eq := by rw [geometry_access, h.ways_eq]
  lineBytes_eq := by rw [geometry_access, h.lineBytes_eq]
  line_eq way := by
    rw [geometry_access]
    intro hlt
    rw [h.sound_left.line_access r h.set_lt_left hlt, if_neg fun heq => hother heq.1.symm]
    exact h.line_eq way hlt

end Alike

/-- Caches whose sets hold the same lines hold as many. -/
theorem residentLines_eq_of_alike {c d : Cache} (hleft : c.Sound) (hright : d.Sound)
    (hsets : c.geometry.sets = d.geometry.sets)
    (h : ∀ set < c.geometry.sets, c.Alike set d set) : c.residentLines = d.residentLines := by
  rw [residentLines, residentLines, hleft.store.resident_eq, hright.store.resident_eq, ← hsets]
  apply Finset.sum_congr rfl
  intro set hset
  rw [TagStore.linesIn, TagStore.linesIn, (h set (Finset.mem_range.mp hset)).places_eq]

/-! ## Caches that hold the same lines in all sets -/

/-- The caches have one shape, all their sets hold the same lines, and a missing line goes to the
same way in both. -/
structure Agree (c d : Cache) : Prop where
  sound_left : c.Sound
  geometry_eq : c.geometry = d.geometry
  alike : ∀ {set}, set < c.geometry.sets → c.Alike set d set
  wayFor_eq : ∀ a, c.wayFor a = d.wayFor a

namespace Agree

variable {c d : Cache} (h : c.Agree d)
include h

theorem setOf_eq (a : UInt64) : d.setOf a = c.setOf a :=
  setOf_eq_of_geometry_eq h.geometry_eq.symm a

theorem alike_setOf (a : UInt64) : c.Alike (c.setOf a) d (c.setOf a) :=
  h.alike (h.sound_left.setOf_lt a)

theorem find_eq (a : UInt64) : c.find a = d.find a :=
  (h.alike_setOf a).find_eq rfl (h.setOf_eq a)

theorem contains_eq (a : UInt64) : c.contains a = d.contains a :=
  (h.alike_setOf a).contains_eq rfl (h.setOf_eq a)

theorem isDirty_eq (a : UInt64) : c.isDirty a = d.isDirty a :=
  (h.alike_setOf a).isDirty_eq rfl (h.setOf_eq a)

theorem residentLines_eq : c.residentLines = d.residentLines :=
  residentLines_eq_of_alike h.sound_left (h.alike h.sound_left.valid.sets_pos).sound_right
    (congrArg Geometry.sets h.geometry_eq) fun _ => h.alike

theorem outcome_eq (r : Request) : (c.access r).outcome = (d.access r).outcome :=
  (h.alike_setOf r.address).outcome_eq rfl (h.setOf_eq r.address) fun _ => h.wayFor_eq r.address

theorem effects_eq (hname : c.name = d.name) (hlogs : c.logsMisses = d.logsMisses) (r : Request) :
    (c.access r).effects = (d.access r).effects :=
  (h.alike_setOf r.address).effects_eq rfl (h.setOf_eq r.address) (fun _ => h.wayFor_eq r.address)
    hname hlogs

theorem charge_eq (q : Counter) (r : Request) : charge q c r = charge q d r :=
  (h.alike_setOf r.address).charge_eq rfl (h.setOf_eq r.address) (fun _ => h.wayFor_eq r.address) q

theorem counters_access (hcounters : c.counters = d.counters) (r : Request) :
    (c.access r).cache.counters = (d.access r).cache.counters :=
  (h.alike_setOf r.address).counters_access rfl (h.setOf_eq r.address)
    (fun _ => h.wayFor_eq r.address) hcounters

end Agree

end Cache

end CacheModel

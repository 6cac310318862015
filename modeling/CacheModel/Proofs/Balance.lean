import Mathlib
import CacheModel.Proofs.Occupancy
import CacheModel.Proofs.Traffic

/-!
# What the counters say about a run

As long as a run can be counted, the counters of the cache that served it tell what was asked of the
cache and what became of it: how many requests read or wrote, how many of each kind missed, and how
many hit.  The bytes are told up to the size of a word.

Two bounds tie the counters to what the cache holds at the end.  A line is sent back because it was
written to, and it has to be written to again before it is sent back again; so a write pays for one
writeback or for one line that is still dirty.  And a line is only driven out by a missing one,
which takes its place; so a miss pays for one writeback or for one line that is still held.
-/

namespace CacheModel

namespace Cache

/-! ## Dirty lines by their places -/

/-- The sets and ways at which a dirty line is held. -/
def dirtyPlaces (c : Cache) : Finset (ℕ × ℕ) :=
  c.heldPlaces.filter fun place => (c.store.line place.1 place.2).dirty

theorem mem_dirtyPlaces {c : Cache} {set way : ℕ} :
    (set, way) ∈ c.dirtyPlaces ↔ (set < c.geometry.sets ∧ way < c.geometry.ways) ∧
      (c.store.line set way).valid = true ∧ (c.store.line set way).dirty = true := by
  rw [dirtyPlaces, Finset.mem_filter, mem_heldPlaces, and_assoc]

section

variable {c : Cache} (h : c.Sound)
include h

/-- A place holds a dirty line if the line is dirty for those who ask for it by its address. -/
theorem Sound.isDirty_of_mem_dirtyPlaces {set way : ℕ} (hplace : (set, way) ∈ c.dirtyPlaces) :
    ∃ a, c.tagOf a = (c.store.line set way).tag ∧ c.isDirty a = some true := by
  obtain ⟨⟨hset, hway⟩, hvalid, hdirty⟩ := mem_dirtyPlaces.mp hplace
  obtain ⟨a, rfl, htag⟩ := h.home hset hway hvalid
  have hfind := h.find_iff.mpr ⟨hway, Line.holds_iff.mpr ⟨hvalid, htag.symm⟩⟩
  refine ⟨a, htag, ?_⟩
  rw [isDirty, hfind, Option.map_some, hdirty]

theorem Sound.exists_dirtyPlace {a : UInt64} (hdirty : c.isDirty a = some true) :
    ∃ set way, (set, way) ∈ c.dirtyPlaces ∧ (c.store.line set way).tag = c.tagOf a := by
  obtain ⟨way, hfind, hbit⟩ := Option.map_eq_some_iff.mp hdirty
  obtain ⟨hway, hholds⟩ := h.find_iff.mp hfind
  obtain ⟨hvalid, htag⟩ := Line.holds_iff.mp hholds
  exact ⟨c.setOf a, way, mem_dirtyPlaces.mpr ⟨⟨h.setOf_lt a, hway⟩, hvalid, hbit⟩, htag⟩

/-- There is one place for every dirty line. -/
theorem Sound.card_dirtyPlaces : c.dirtyPlaces.card = c.dirtyTags.card := by
  refine Finset.card_nbij (fun place => (c.store.line place.1 place.2).tag) ?_ ?_ ?_
  · rintro ⟨set, way⟩ hplace
    obtain ⟨a, htag, hdirty⟩ := h.isDirty_of_mem_dirtyPlaces hplace
    show (c.store.line set way).tag ∈ c.dirtyTags
    rw [← htag]
    exact tagOf_mem_dirtyTags.mpr hdirty
  · rintro ⟨set, way⟩ hplace ⟨set', way'⟩ hplace' htag
    obtain ⟨⟨hset, hway⟩, hvalid, -⟩ := mem_dirtyPlaces.mp hplace
    obtain ⟨⟨hset', hway'⟩, hvalid', -⟩ := mem_dirtyPlaces.mp hplace'
    exact Prod.mk.injEq .. ▸ h.place_unique hset hway hset' hway' hvalid hvalid' htag
  · intro tag htag
    obtain ⟨a, rfl, hdirty⟩ := exists_of_mem_dirtyTags htag
    obtain ⟨set, way, hplace, hline⟩ := h.exists_dirtyPlace hdirty
    exact ⟨(set, way), hplace, hline⟩

end

/-! ## Sums over a run -/

/-- The requests of a run are counted with or without their outcomes. -/
theorem countP_fst_outcomes (p : Request → Bool) (c : Cache) (rs : List Request) :
    (c.outcomes rs).countP (fun served => p served.1) = rs.countP p := by
  conv_rhs => rw [← map_fst_outcomes c rs, List.countP_map]
  rfl

theorem tally_misses (c : Cache) (rs : List Request) :
    tally (charge .readMisses) c rs + tally (charge .writeMisses) c rs =
      (c.outcomes rs).countP fun served => !served.2.isHit := by
  rw [← tally_add]
  refine tally_eq_countP (fun c r => ?_) c rs
  simp only [charge, isHit_outcome]
  cases r.isWrite <;> cases c.contains r.address <;> decide

/-- Every request hits or misses. -/
theorem countP_hits_add_countP_misses (c : Cache) (rs : List Request) :
    (c.outcomes rs).countP (fun served => served.2.isHit) +
      (c.outcomes rs).countP (fun served => !served.2.isHit) = rs.length := by
  rw [← length_outcomes c rs, List.length_eq_countP_add_countP fun served => served.2.isHit]
  simp only [Bool.not_eq_true, Bool.decide_eq_false]

/-- A request that makes a clean line dirty is a write. -/
theorem soils_le (c : Cache) (r : Request) : c.soils r ≤ charge .writeAccesses c r := by
  rw [soils, charge]
  split
  · next hsoils => rw [if_pos hsoils.1]
  · exact Nat.zero_le _

/-- A miss sends a line back or takes an empty place, but not both. -/
theorem charge_writebacks_add_le (c : Cache) (r : Request) :
    (charge .writebacks c r + if c.occupies r then 1 else 0) ≤
      charge .readMisses c r + charge .writeMisses c r := by
  have hmisses : charge .readMisses c r + charge .writeMisses c r =
      if c.contains r.address then 0 else 1 := by
    simp only [charge]
    cases r.isWrite <;> cases c.contains r.address <;> decide
  rw [hmisses, charge]
  by_cases hback : c.writesBack r = true
  · obtain ⟨hmiss, hvalid, -⟩ := writesBack_eq_true_iff.mp hback
    simp [hback, occupies, contains, hmiss, hvalid]
  · rw [if_neg hback, Nat.zero_add, occupies]
    cases c.contains r.address
    · split <;> simp
    · simp

section

variable {c : Cache} (h : c.Sound)
include h

/-- The lines at the end are those at the start and one for every empty place that was taken. -/
theorem Sound.residentLines_after (rs : List Request) :
    (c.after rs).residentLines =
      c.residentLines + tally (fun c r => if c.occupies r then 1 else 0) c rs := by
  induction rs using List.reverseRecOn with
  | nil => rfl
  | append_singleton rs r ih =>
    rw [after_append, after_cons, after_nil, (h.after rs).residentLines_access, ih, tally_concat,
      Nat.add_assoc]

/-- A write pays for a writeback or for a line that is dirty at the end. -/
theorem Sound.tally_writebacks_add_dirty_le (rs : List Request) :
    tally (charge .writebacks) c rs + (c.after rs).dirtyPlaces.card ≤
      tally (charge .writeAccesses) c rs + c.dirtyPlaces.card := by
  have hsoils : tally soils c rs ≤ tally (charge .writeAccesses) c rs :=
    tally_le_tally fun past r _ => soils_le _ r
  have hbalance := h.tally_writebacks_add_card rs
  rw [h.card_dirtyPlaces, (h.after rs).card_dirtyPlaces]
  omega

/-- A miss pays for a writeback or for a line that is held at the end. -/
theorem Sound.tally_writebacks_add_residentLines_le (rs : List Request) :
    tally (charge .writebacks) c rs + (c.after rs).residentLines ≤
      tally (charge .readMisses) c rs + tally (charge .writeMisses) c rs + c.residentLines := by
  have hpaid : tally (fun c r => charge .writebacks c r + if c.occupies r then 1 else 0) c rs ≤
      tally (fun c r => charge .readMisses c r + charge .writeMisses c r) c rs :=
    tally_le_tally fun past r _ => charge_writebacks_add_le (c.after past) r
  rw [tally_add, tally_add] at hpaid
  have hheld := h.residentLines_after rs
  omega

end

theorem Built.dirtyPlaces_eq_empty {c : Cache} (h : c.Built) : c.dirtyPlaces = ∅ := by
  rw [← Finset.card_eq_zero, h.sound.card_dirtyPlaces, h.dirtyTags_eq_empty, Finset.card_empty]

/-! ## The counters -/

section

variable {c : Cache} (h : c.Built) {rs : List Request} (hcount : rs.length < 2 ^ 64)
include h hcount

theorem Built.toNat_readAccesses_after :
    (c.after rs).counters.readAccesses.toNat = rs.countP fun r => !r.isWrite := by
  rw [← countP_fst_outcomes _ c]
  refine (h.toNat_get_after hcount (q := .readAccesses) nofun nofun).trans ?_
  refine tally_eq_countP (fun c r => ?_) c rs
  cases hwrite : r.isWrite <;> simp [charge, hwrite]

theorem Built.toNat_writeAccesses_after :
    (c.after rs).counters.writeAccesses.toNat = rs.countP fun r => r.isWrite := by
  rw [← countP_fst_outcomes _ c]
  refine (h.toNat_get_after hcount (q := .writeAccesses) nofun nofun).trans ?_
  exact tally_eq_countP (fun _ r => by rw [charge]) c rs

theorem Built.toNat_readMisses_after :
    (c.after rs).counters.readMisses.toNat =
      (c.outcomes rs).countP fun served => !served.1.isWrite && !served.2.isHit := by
  refine (h.toNat_get_after hcount (q := .readMisses) nofun nofun).trans ?_
  refine tally_eq_countP (fun c r => ?_) c rs
  rw [isHit_outcome, charge]

theorem Built.toNat_writeMisses_after :
    (c.after rs).counters.writeMisses.toNat =
      (c.outcomes rs).countP fun served => served.1.isWrite && !served.2.isHit := by
  refine (h.toNat_get_after hcount (q := .writeMisses) nofun nofun).trans ?_
  refine tally_eq_countP (fun c r => ?_) c rs
  rw [isHit_outcome, charge]

theorem Built.toNat_accesses_after : (c.after rs).counters.accesses.toNat = rs.length := by
  have hall : rs.length = _ := List.length_eq_countP_add_countP fun r : Request => r.isWrite
  simp only [Bool.not_eq_true, Bool.decide_eq_false] at hall
  rw [Counters.accesses, UInt64.toNat_add, h.toNat_readAccesses_after hcount,
    h.toNat_writeAccesses_after hcount, Nat.mod_eq_of_lt (by omega)]
  omega

theorem Built.toNat_misses_after :
    (c.after rs).counters.misses.toNat =
      tally (charge .readMisses) c rs + tally (charge .writeMisses) c rs := by
  have hreads := h.toNat_get_after hcount (q := .readMisses) nofun nofun
  have hwrites := h.toNat_get_after hcount (q := .writeMisses) nofun nofun
  have hsum := tally_misses c rs
  have hall := countP_hits_add_countP_misses c rs
  simp only [Counters.get] at hreads hwrites
  rw [Counters.misses, UInt64.toNat_add, hreads, hwrites]
  exact Nat.mod_eq_of_lt (by omega)

/-- The requests that hit are those that did not miss. -/
theorem Built.toNat_hits_after :
    (c.after rs).counters.hits.toNat =
      (c.outcomes rs).countP fun served => served.2.isHit := by
  have haccesses := h.toNat_accesses_after hcount
  have hmisses := h.toNat_misses_after hcount
  have hall := countP_hits_add_countP_misses c rs
  rw [tally_misses] at hmisses
  have hle : (c.after rs).counters.misses ≤ (c.after rs).counters.accesses := by
    rw [UInt64.le_iff_toNat_le]
    omega
  rw [Counters.hits, UInt64.toNat_sub_of_le _ _ hle]
  omega

/-- Every writeback and every dirty line that is left goes back to a write of its own. -/
theorem Built.toNat_writebacks_add_dirtyPlaces_le :
    (c.after rs).counters.writebacks.toNat + (c.after rs).dirtyPlaces.card ≤
      (c.after rs).counters.writeAccesses.toNat := by
  have hwritebacks := h.toNat_get_after hcount (q := .writebacks) nofun nofun
  have hwrites := h.toNat_get_after hcount (q := .writeAccesses) nofun nofun
  have hle := h.sound.tally_writebacks_add_dirty_le rs
  rw [h.dirtyPlaces_eq_empty, Finset.card_empty, ← hwritebacks, ← hwrites] at hle
  exact hle

/-- Every writeback and every line that is held goes back to a miss of its own. -/
theorem Built.toNat_writebacks_add_residentLines_le :
    (c.after rs).counters.writebacks.toNat + (c.after rs).residentLines ≤
      (c.after rs).counters.misses.toNat := by
  have hwritebacks := h.toNat_get_after hcount (q := .writebacks) nofun nofun
  have hle := h.sound.tally_writebacks_add_residentLines_le rs
  rw [h.residentLines_eq_zero, ← hwritebacks, ← h.toNat_misses_after hcount] at hle
  exact hle

end

/-- **The counters account for the run.**  Let a new cache serve a run that can be counted.  Its
counters show how many requests read and how many wrote, how many of each kind missed, how many hit,
and the bytes of each kind modulo the size of a word.  The writebacks and the dirty lines that are
left are together no more than the writes, and the writebacks and the lines that are held are
together no more than the misses. -/
theorem counters_after {c : Cache} (h : c.Built) {rs : List Request}
    (hcount : rs.length < 2 ^ 64) :
    let counters := (c.after rs).counters
    counters.readAccesses.toNat = (rs.countP fun r => !r.isWrite) ∧
      counters.writeAccesses.toNat = (rs.countP fun r => r.isWrite) ∧
      counters.readMisses.toNat =
        ((c.outcomes rs).countP fun served => !served.1.isWrite && !served.2.isHit) ∧
      counters.writeMisses.toNat =
        ((c.outcomes rs).countP fun served => served.1.isWrite && !served.2.isHit) ∧
      counters.hits.toNat = ((c.outcomes rs).countP fun served => served.2.isHit) ∧
      counters.bytesRead.toNat =
        ((rs.filter fun r => !r.isWrite).map fun r => r.bytes.toNat).sum % 2 ^ 64 ∧
      counters.bytesWritten.toNat =
        ((rs.filter fun r => r.isWrite).map fun r => r.bytes.toNat).sum % 2 ^ 64 ∧
      counters.writebacks.toNat + (c.after rs).dirtyPlaces.card ≤ counters.writeAccesses.toNat ∧
      counters.writebacks.toNat + (c.after rs).residentLines ≤ counters.misses.toNat := by
  intro counters
  have hbytes := fun isWrite => h.toNat_get_after_modEq rs (Counter.bytes isWrite)
  simp only [Counter.tally_charge_bytes, traffic, id_eq] at hbytes
  refine ⟨h.toNat_readAccesses_after hcount, h.toNat_writeAccesses_after hcount,
    h.toNat_readMisses_after hcount, h.toNat_writeMisses_after hcount, h.toNat_hits_after hcount,
    ?_, ?_, h.toNat_writebacks_add_dirtyPlaces_le hcount,
    h.toNat_writebacks_add_residentLines_le hcount⟩
  · have hread := hbytes false
    simp only [beq_false] at hread
    exact (Nat.mod_eq_of_lt (UInt64.toNat_lt _)).symm.trans hread
  · have hwritten := hbytes true
    simp only [beq_true] at hwritten
    exact (Nat.mod_eq_of_lt (UInt64.toNat_lt _)).symm.trans hwritten

/-- One way: a dirty line is driven out, fetched again and driven out clean, and the bytes of two
large writes come round. -/
theorem counters_after_one_way :
    let c := fresh .array ⟨2, 1, 8, .random⟩ "L1$" default
    let rs : List Request := [⟨0, 2 ^ 63, true⟩, ⟨4, 2 ^ 63 + 5, true⟩, ⟨16, 8, false⟩,
      ⟨0, 8, false⟩, ⟨16, 8, true⟩, ⟨8, 8, false⟩]
    let counters := (c.after rs).counters
    buildWith .array ⟨2, 1, 8, .random⟩ "L1$" default = .ok c ∧ rs.length < 2 ^ 64 ∧
      counters.readAccesses.toNat = 3 ∧ counters.writeAccesses.toNat = 3 ∧
      counters.readMisses.toNat = 3 ∧ counters.writeMisses.toNat = 2 ∧ counters.hits.toNat = 1 ∧
      counters.bytesWritten.toNat = 13 ∧ counters.writebacks.toNat = 1 ∧
      (c.after rs).dirtyPlaces.card = 1 ∧ (c.after rs).residentLines = 2 ∧
      counters.writebacks.toNat + 1 ≤ counters.writeAccesses.toNat ∧
      counters.writebacks.toNat + 2 ≤ counters.misses.toNat := by
  intro c rs counters
  have hbuild : buildWith .array ⟨2, 1, 8, .random⟩ "L1$" default = .ok c := rfl
  have hcount : rs.length < 2 ^ 64 := by decide
  have hdirty : (c.after rs).dirtyPlaces.card = 1 := by decide
  have hheld : (c.after rs).residentLines = 2 := by decide
  obtain ⟨hreads, hwrites, hreadMisses, hwriteMisses, hhits, -, hwritten, hle, hle'⟩ :=
    counters_after (.setAssociative hbuild) hcount
  refine ⟨hbuild, hcount, hreads, hwrites, hreadMisses.trans ?_, hwriteMisses.trans ?_,
    hhits.trans ?_, hwritten.trans ?_, ?_, hdirty, hheld, hdirty ▸ hle, hheld ▸ hle'⟩
  all_goals decide +kernel

end Cache

end CacheModel

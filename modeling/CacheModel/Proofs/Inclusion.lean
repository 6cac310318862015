import Mathlib
import CacheModel.Proofs.Recency
import CacheModel.Proofs.Tally

/-!
# Larger caches under LRU

Two caches with lines of the same length see the same line in every request.  If lines that share
a set in the larger cache always share one in the smaller cache too, then at its set in the larger
cache a line never has more lines in front of it than at its set in the smaller one.  By the
distance law of LRU the larger cache then holds whatever the smaller one holds.

The larger cache loses a line only when the smaller one has lost it already, so a line that is
dirty in the smaller cache is dirty in the larger one.  No single writeback of the larger cache
need come with one of the smaller cache.  But the larger cache makes no more lines dirty, and it
has no fewer of them left at the end, so by the balance of writebacks it sends no more of them
back.
-/

namespace CacheModel

namespace Geometry

/-- The larger shape has lines of the same length, splits the sets of the smaller one, and gives
each set at least as many ways. -/
structure Within (small large : Geometry) : Prop where
  lineBytes_eq : small.lineBytes = large.lineBytes
  sets_dvd : small.sets ∣ large.sets
  ways_le : small.ways ≤ large.ways

/-- What shares a set of the larger shape shares a set of the smaller one. -/
theorem Within.setOfTag_eq {small large : Geometry} (h : small.Within large) (hsmall : small.Valid)
    (hlarge : large.Valid) {t u : UInt64}
    (heq : large.addresses.setOfTag t = large.addresses.setOfTag u) :
    small.addresses.setOfTag t = small.addresses.setOfTag u := by
  rw [hlarge.setOfTag_eq, hlarge.setOfTag_eq] at heq
  rw [hsmall.setOfTag_eq, hsmall.setOfTag_eq]
  exact Nat.ModEq.of_dvd h.sets_dvd heq

end Geometry

namespace Cache

section

variable {small large : Cache} (hwithin : small.geometry.Within large.geometry)
include hwithin

theorem tagOf_eq_of_within : small.tagOf = large.tagOf :=
  funext (Geometry.tag_eq_of_lineBytes_eq hwithin.lineBytes_eq)

/-- In the larger cache no line has more lines of its set in front of it. -/
theorem stackDistance_le_of_within (hsmall : small.geometry.Valid) (hlarge : large.geometry.Valid)
    (history : List UInt64) (a : UInt64) :
    large.stackDistance history a ≤ small.stackDistance history a := by
  rw [stackDistance, stackDistance, tagOf_eq_of_within hwithin]
  refine Finset.card_le_card (Finset.monotone_filter_right _ fun t _ hset => ?_)
  have hsame := hwithin.setOfTag_eq hsmall hlarge hset
  rw [← Geometry.tag_eq_of_lineBytes_eq hwithin.lineBytes_eq] at hsame
  exact hsame

end

/-! ## The same run in two caches -/

/-- Two new caches under LRU, of which the second one is larger. -/
structure Enlarged (small large : Cache) : Prop where
  built : small.Built
  built_large : large.Built
  policy_eq : small.geometry.policy = .lru
  policy_large_eq : large.geometry.policy = .lru
  within : small.geometry.Within large.geometry

section

variable {small large : Cache} (h : small.Enlarged large)
include h

/-- The larger cache holds whatever the smaller one holds. -/
theorem Enlarged.contains_after {rs : List Request} (hcount : rs.length < 2 ^ 64) {a : UInt64}
    (hheld : (small.after rs).contains a = true) : (large.after rs).contains a = true := by
  obtain ⟨hused, hlt⟩ := (h.built.contains_after_iff h.policy_eq hcount).mp hheld
  rw [h.built_large.contains_after_iff h.policy_large_eq hcount, ← tagOf_eq_of_within h.within]
  refine ⟨hused, ?_⟩
  calc large.stackDistance _ a
      ≤ small.stackDistance _ a :=
        stackDistance_le_of_within h.within h.built.sound.valid h.built_large.sound.valid _ a
    _ < small.geometry.ways := hlt
    _ ≤ large.geometry.ways := h.within.ways_le

/-- What is dirty in the smaller cache is dirty in the larger one. -/
theorem Enlarged.isDirty_after {rs : List Request} (hcount : rs.length < 2 ^ 64) {a : UInt64}
    (hdirty : (small.after rs).isDirty a = some true) :
    (large.after rs).isDirty a = some true := by
  induction rs using List.reverseRecOn with
  | nil => simp [h.built.isDirty_eq_none] at hdirty
  | append_singleton rs r ih =>
    have hheld := h.contains_after hcount (contains_of_isDirty hdirty)
    have hbefore : rs.length < 2 ^ 64 := lt_of_le_of_lt (by simp) hcount
    have hsound' := h.built_large.sound.after rs
    rw [after_append, after_cons, after_nil] at hdirty hheld ⊢
    rw [(h.built.sound.after rs).isDirty_access_iff_not_evicts] at hdirty
    refine hsound'.isDirty_access_iff_not_evicts.mpr (hdirty.imp ?_ ?_)
    · rintro ⟨hwrite, htag⟩
      refine ⟨hwrite, ?_⟩
      rw [geometry_after] at htag ⊢
      rwa [← Geometry.tag_eq_of_lineBytes_eq h.within.lineBytes_eq,
        ← Geometry.tag_eq_of_lineBytes_eq h.within.lineBytes_eq]
    · rintro ⟨hdirty, -⟩
      refine ⟨ih hbefore hdirty, fun hevicts => ?_⟩
      -- The smaller cache still has the line, so the larger one cannot have lost it.
      rw [contains, hsound'.find_access_of_evicts hevicts] at hheld
      cases hheld

/-- A request that misses the larger cache misses the smaller one. -/
theorem Enlarged.tally_misses_le {q : Counter} (hq : q = .readMisses ∨ q = .writeMisses)
    {rs : List Request} (hcount : rs.length < 2 ^ 64) :
    tally (charge q) large rs ≤ tally (charge q) small rs := by
  refine tally_le_tally fun past r hpast => ?_
  have hheld := h.contains_after (hpast.trans hcount) (a := r.address)
  rcases hq with rfl | rfl
  all_goals
    simp only [charge]
    grind

theorem Enlarged.tally_soils_le {rs : List Request} (hcount : rs.length < 2 ^ 64) :
    tally soils large rs ≤ tally soils small rs := by
  refine tally_le_tally fun past r hpast => ?_
  have hdirty := h.isDirty_after (hpast.trans hcount) (a := r.address)
  simp only [soils]
  grind

theorem Enlarged.dirtyTags_subset {rs : List Request} (hcount : rs.length < 2 ^ 64) :
    (small.after rs).dirtyTags ⊆ (large.after rs).dirtyTags := by
  intro t ht
  obtain ⟨a, htag, hdirty⟩ := exists_of_mem_dirtyTags ht
  rw [← htag, tagOf_after, tagOf_eq_of_within h.within, ← tagOf_after large rs,
    tagOf_mem_dirtyTags]
  exact h.isDirty_after hcount hdirty

/-- The larger cache makes fewer lines dirty and keeps more of them, so it sends fewer back. -/
theorem Enlarged.tally_writebacks_le {rs : List Request} (hcount : rs.length < 2 ^ 64) :
    tally (charge .writebacks) large rs ≤ tally (charge .writebacks) small rs := by
  have hsoils := h.tally_soils_le hcount
  have hkept := Finset.card_le_card (h.dirtyTags_subset hcount)
  have hbalance := h.built.sound.tally_writebacks_add_card rs
  have hbalance' := h.built_large.sound.tally_writebacks_add_card rs
  rw [h.built.dirtyTags_eq_empty, Finset.card_empty] at hbalance
  rw [h.built_large.dirtyTags_eq_empty, Finset.card_empty] at hbalance'
  omega

/-- A counter that is tallied no higher in the larger cache shows no more there. -/
theorem Enlarged.get_le {q : Counter} (hread : q ≠ .bytesRead) (hwritten : q ≠ .bytesWritten)
    {rs : List Request} (hcount : rs.length < 2 ^ 64)
    (hle : tally (charge q) large rs ≤ tally (charge q) small rs) :
    (large.after rs).counters.get q ≤ (small.after rs).counters.get q := by
  rw [UInt64.le_iff_toNat_le, h.built.toNat_get_after hcount hread hwritten,
    h.built_large.toNat_get_after hcount hread hwritten]
  exact hle

end

/-- **A larger LRU cache never does worse.**  Let two new caches under LRU have lines of the same
length, let the number of sets of the smaller one divide that of the larger one, and let it have
no more ways.  After every run that their clocks can count, the larger cache holds every line that
the smaller one holds, every line that is dirty in the smaller cache is dirty in the larger one, and
the larger cache has had no more read misses, no more write misses and no more writebacks. -/
theorem lru_larger_cache_no_worse {small large : Cache} (hsmall : small.Built)
    (hlarge : large.Built) (hlru : small.geometry.policy = .lru)
    (hlru' : large.geometry.policy = .lru)
    (hbytes : small.geometry.lineBytes = large.geometry.lineBytes)
    (hsets : small.geometry.sets ∣ large.geometry.sets)
    (hways : small.geometry.ways ≤ large.geometry.ways) (rs : List Request)
    (hcount : rs.length < 2 ^ 64) :
    let less := small.after rs
    let more := large.after rs
    (∀ a, less.contains a = true → more.contains a = true) ∧
      (∀ a, less.isDirty a = some true → more.isDirty a = some true) ∧
      more.counters.readMisses ≤ less.counters.readMisses ∧
      more.counters.writeMisses ≤ less.counters.writeMisses ∧
      more.counters.writebacks ≤ less.counters.writebacks := by
  intro less more
  have h : small.Enlarged large := ⟨hsmall, hlarge, hlru, hlru', ⟨hbytes, hsets, hways⟩⟩
  refine ⟨?_, ?_, ?_, ?_, ?_⟩
  · exact fun a => h.contains_after hcount
  · exact fun a => h.isDirty_after hcount
  · exact h.get_le (q := .readMisses) nofun nofun hcount (h.tally_misses_le (Or.inl rfl) hcount)
  · exact h.get_le (q := .writeMisses) nofun nofun hcount (h.tally_misses_le (Or.inr rfl) hcount)
  · exact h.get_le (q := .writebacks) nofun nofun hcount (h.tally_writebacks_le hcount)

/-- Two sets of two ways against four sets of three ways: the smaller cache sends the line that was
written to back, the larger one still has it. -/
theorem lru_larger_cache_no_worse_four_sets :
    let small := fresh .array ⟨2, 2, 8, .lru⟩ "L1$" default
    let large := fresh .array ⟨4, 3, 8, .lru⟩ "L1$" default
    let rs : List Request := [⟨0, 8, true⟩, ⟨16, 8, false⟩, ⟨32, 8, false⟩, ⟨4, 4, false⟩]
    Cache.build ⟨2, 2, 8, .lru⟩ "L1$" default = .ok small ∧
      Cache.build ⟨4, 3, 8, .lru⟩ "L1$" default = .ok large ∧ rs.length < 2 ^ 64 ∧
      (small.after rs).counters.writebacks = 1 ∧ (large.after rs).counters.writebacks = 0 ∧
      (small.after rs).contains 32 = true ∧ (large.after rs).contains 32 = true ∧
      (large.after rs).counters.readMisses ≤ (small.after rs).counters.readMisses := by
  intro small large rs
  have hsmall : Cache.build ⟨2, 2, 8, .lru⟩ "L1$" default = .ok small := rfl
  have hlarge : Cache.build ⟨4, 3, 8, .lru⟩ "L1$" default = .ok large := rfl
  have hcount : rs.length < 2 ^ 64 := by decide
  obtain ⟨hheld, -, hreads, -, -⟩ := lru_larger_cache_no_worse (.standard hsmall)
    (.standard hlarge) rfl rfl rfl (by decide) (by decide) rs hcount
  have hthere : (small.after rs).contains 32 = true := by decide
  exact ⟨hsmall, hlarge, hcount, by decide, by decide, hthere, hheld 32 hthere, hreads⟩

end Cache

end CacheModel

import Mathlib
import CacheModel.Proofs.Occupancy
import CacheModel.Proofs.Visible

/-!
# What one request changes

A cache in use holds more than can be seen: stamps, a clock, the places of its lines, an index.
What can be seen is which lines it holds, which of them are dirty, and how many there are.  The
statements here tell what a request does to that, in these terms alone, and for every address at
once.

A hit moves no line and can only make its own line dirty.  A miss brings its line in, and at most
one other line leaves for it.  A line leaves exactly if it stood at the place that was chosen, so
it shares the set of the request; and since a line that comes to an empty place drives nothing out,
the number of lines grows exactly if none leaves.
-/

namespace CacheModel

namespace Cache

/-! ## Caches in use -/

/-- A cache as it can be met in use: it was built, and since then it served requests and was told
whether to report its misses, in any order. -/
inductive Reached : Cache → Prop
  | built {c : Cache} (h : c.Built) : Reached c
  | access {c : Cache} (h : Reached c) (r : Request) : Reached (c.access r).cache
  | reporting {c : Cache} (h : Reached c) (logsMisses : Bool) : Reached (c.reporting logsMisses)

theorem Reached.sound {c : Cache} (h : c.Reached) : c.Sound := by
  induction h with
  | built h => exact h.sound
  | access _ r ih => exact ih.access r
  | reporting _ logsMisses ih => exact ih.reporting logsMisses

theorem Reached.after {c : Cache} (h : c.Reached) (rs : List Request) : (c.after rs).Reached := by
  induction rs generalizing c with
  | nil => exact h
  | cons r rs ih => exact ih (h.access r)

/-! ## Lines that leave -/

/-- The line of `a` is there before the request and gone after it. -/
def Leaves (c : Cache) (r : Request) (a : UInt64) : Prop :=
  c.contains a = true ∧ (c.access r).cache.contains a = false

theorem contains_eq_false_iff {c : Cache} {a : UInt64} :
    c.contains a = false ↔ c.find a = none := by
  rw [contains, Option.isSome_eq_false_iff, Option.isNone_iff_eq_none]

section

variable {c : Cache} (h : c.Sound)
include h

/-- What leaves is the line that has to make room. -/
theorem Sound.leaves_iff_evicts {r : Request} {a : UInt64} : c.Leaves r a ↔ c.Evicts r a := by
  rw [Leaves, contains_eq_false_iff]
  constructor
  · rintro ⟨hheld, hgone⟩
    refine (h.find_eq_none_or_evicts hgone).resolve_left fun hmissing => ?_
    rw [contains, hmissing] at hheld
    cases hheld
  · intro hevicts
    refine ⟨?_, h.find_access_of_evicts hevicts⟩
    rw [contains, (h.find_of_evicts hevicts).1]
    rfl

/-- All addresses that leave belong to one line. -/
theorem Sound.tagOf_eq_of_leaves {r : Request} {a b : UInt64} (ha : c.Leaves r a)
    (hb : c.Leaves r b) : c.tagOf a = c.tagOf b := by
  have htag := (Line.holds_iff.mp (h.leaves_iff_evicts.mp ha).2).2
  exact htag.symm.trans (Line.holds_iff.mp (h.leaves_iff_evicts.mp hb).2).2

/-- The line that leaves is another line of the set of the request. -/
theorem Sound.setOf_eq_of_leaves {r : Request} {a : UInt64} (ha : c.Leaves r a) :
    c.tagOf a ≠ c.tagOf r.address ∧ c.setOf a = c.setOf r.address := by
  have hevicts := h.leaves_iff_evicts.mp ha
  exact ⟨(h.tag_ne_of_evicts hevicts).symm, (h.find_of_evicts hevicts).2⟩

/-- Some line leaves exactly if the request misses and comes to a place that holds a line. -/
theorem Sound.exists_leaves_iff {r : Request} :
    (∃ a, c.Leaves r a) ↔
      c.contains r.address = false ∧ (c.lineFor r.address).valid = true := by
  rw [contains_eq_false_iff]
  constructor
  · rintro ⟨a, ha⟩
    obtain ⟨hmiss, hholds⟩ := h.leaves_iff_evicts.mp ha
    exact ⟨hmiss, (Line.holds_iff.mp hholds).1⟩
  · rintro ⟨hmiss, hvalid⟩
    obtain ⟨a, -, htag⟩ := h.home (h.setOf_lt r.address) (h.offers_wayFor r.address).lt hvalid
    exact ⟨a, h.leaves_iff_evicts.mpr ⟨hmiss, Line.holds_iff.mpr ⟨hvalid, htag.symm⟩⟩⟩

/-! ## Lines that stay -/

/-- Another line that does not leave is found where it was. -/
theorem Sound.contains_access_of_stays {r : Request} {a : UInt64}
    (htag : c.tagOf a ≠ c.tagOf r.address) (hstays : ¬ c.Leaves r a) :
    (c.access r).cache.contains a = c.contains a := by
  rw [contains, contains,
    h.find_access_of_not_evicts htag.symm (mt h.leaves_iff_evicts.mpr hstays)]

theorem Sound.isDirty_access_of_stays {r : Request} {a : UInt64}
    (htag : c.tagOf a ≠ c.tagOf r.address) (hstays : ¬ c.Leaves r a) :
    (c.access r).cache.isDirty a = c.isDirty a :=
  h.isDirty_access_of_not_evicts htag.symm (mt h.leaves_iff_evicts.mpr hstays)

theorem Sound.contains_access_self {r : Request} {a : UInt64}
    (htag : c.tagOf a = c.tagOf r.address) : (c.access r).cache.contains a = true := by
  have htag' : (c.access r).cache.tagOf a = (c.access r).cache.tagOf r.address := by
    simpa using htag
  rw [contains, find_eq_of_tagOf_eq htag', h.find_access_self]
  rfl

/-- No line leaves at a hit. -/
theorem Sound.not_leaves_of_hit {r : Request} (hhit : c.contains r.address = true)
    (a : UInt64) : ¬ c.Leaves r a := by
  intro ha
  have hmiss := (h.exists_leaves_iff.mp ⟨a, ha⟩).1
  rw [hhit] at hmiss
  cases hmiss

/-- The number of lines grows exactly if a line is missing and none leaves for it. -/
theorem Sound.residentLines_access_of_miss {r : Request} (hmiss : c.contains r.address = false) :
    ((∃ a, c.Leaves r a) → (c.access r).cache.residentLines = c.residentLines) ∧
      ((∀ a, ¬ c.Leaves r a) → (c.access r).cache.residentLines = c.residentLines + 1) := by
  have hleaves := h.exists_leaves_iff (r := r)
  rw [and_iff_right hmiss] at hleaves
  rw [h.residentLines_access, occupies, hmiss]
  constructor
  · intro hsome
    rw [hleaves.mp hsome]
    rfl
  · intro hnone
    rw [Bool.eq_false_iff.mpr (mt hleaves.mpr (not_exists.mpr hnone))]
    rfl

end

/-- **The effect of a request on what can be seen.**  In every state of a cache, whatever its shape,
store, policy and source of draws, the line of a request is held after it.

* A hit leaves all lines where they are.  Its own line is dirty afterwards if the request writes or
  if it was dirty before, and all other dirty bits stay as they are.
* After a miss the line is dirty exactly if the request writes.  At most one line leaves; it is
  another one of the same set.  All other lines stay, with their dirty bits, or stay away.  The
  number of lines grows by one if no line leaves, and does not change if one does. -/
theorem effect_of_request {c : Cache} (hreached : c.Reached) (r : Request) :
    let next := (c.access r).cache
    next.contains r.address = true ∧
      ((c.access r).outcome.isHit = true →
        (∀ a, next.contains a = c.contains a) ∧
        (∀ a, next.isDirty a =
          if c.tagOf a = c.tagOf r.address then some (r.isWrite || c.isDirty a == some true)
          else c.isDirty a) ∧
        next.residentLines = c.residentLines) ∧
      ((c.access r).outcome.isHit = false →
        (∀ a, c.tagOf a = c.tagOf r.address → next.isDirty a = some r.isWrite) ∧
        (∀ a b, c.Leaves r a → c.Leaves r b → c.tagOf a = c.tagOf b) ∧
        (∀ a, c.Leaves r a →
          c.tagOf a ≠ c.tagOf r.address ∧ c.setOf a = c.setOf r.address) ∧
        (∀ a, c.tagOf a ≠ c.tagOf r.address → ¬ c.Leaves r a →
          next.contains a = c.contains a ∧ next.isDirty a = c.isDirty a) ∧
        ((∃ a, c.Leaves r a) → next.residentLines = c.residentLines) ∧
        ((∀ a, ¬ c.Leaves r a) → next.residentLines = c.residentLines + 1)) := by
  have h := hreached.sound
  rw [isHit_outcome]
  intro next
  refine ⟨h.contains_access_self rfl, fun hhit => ⟨fun a => ?_, fun a => ?_, ?_⟩, fun hmiss => ?_⟩
  · by_cases htag : c.tagOf a = c.tagOf r.address
    · rw [h.contains_access_self htag, contains, find_eq_of_tagOf_eq htag, ← contains, hhit]
    · exact h.contains_access_of_stays htag (h.not_leaves_of_hit hhit a)
  · split
    · next htag => exact h.isDirty_access_self htag.symm
    · next htag => exact h.isDirty_access_of_stays htag (h.not_leaves_of_hit hhit a)
  · rw [h.residentLines_access, occupies, hhit]
    rfl
  · obtain ⟨hkept, hgrown⟩ := h.residentLines_access_of_miss hmiss
    refine ⟨fun a htag => ?_, fun a b => h.tagOf_eq_of_leaves, fun a => h.setOf_eq_of_leaves,
      fun a htag hstays => ?_, hkept, hgrown⟩
    · have hmissing : c.isDirty a = none := by
        rw [isDirty, find_eq_of_tagOf_eq htag, contains_eq_false_iff.mp hmiss]
        rfl
      rw [h.isDirty_access_self htag.symm, hmissing]
      simp
    · exact ⟨h.contains_access_of_stays htag hstays, h.isDirty_access_of_stays htag hstays⟩

/-- Two ways on a map: a write brings in the third line, the one that came first leaves, and the
other one stays clean. -/
theorem effect_of_request_full_map :
    let c := (fresh .map ⟨1, 2, 8, .fifo⟩ "L1$" default).after [⟨0, 8, true⟩, ⟨8, 8, false⟩]
    let r : Request := ⟨20, 4, true⟩
    let next := (c.access r).cache
    c.Reached ∧ (c.access r).outcome.isHit = false ∧ c.Leaves r 3 ∧ next.contains 20 = true ∧
      next.isDirty 16 = some true ∧ c.setOf 3 = c.setOf 20 ∧ next.contains 8 = true ∧
      next.isDirty 8 = some false ∧ next.residentLines = 2 := by
  intro c r next
  have hbuild : buildWith .map ⟨1, 2, 8, .fifo⟩ "L1$" default =
      .ok (fresh .map ⟨1, 2, 8, .fifo⟩ "L1$" default) := rfl
  have hreached : c.Reached := (Reached.built (.fullyAssociative rfl hbuild)).after _
  have hleaves : c.Leaves r 3 := ⟨by decide, by decide⟩
  have hmiss : (c.access r).outcome.isHit = false := by decide
  obtain ⟨hheld, -, hchanged⟩ := effect_of_request hreached r
  obtain ⟨hown, -, hhome, hothers, hcount, -⟩ := hchanged hmiss
  obtain ⟨hthere, hclean⟩ := hothers 8 (by decide) (by rintro ⟨-, hgone⟩; revert hgone; decide)
  refine ⟨hreached, hmiss, hleaves, hheld, hown 16 (by decide), (hhome 3 hleaves).2, ?_, ?_, ?_⟩
  · rw [hthere]
    decide
  · rw [hclean]
    decide
  · rw [hcount ⟨3, hleaves⟩]
    decide

end Cache

end CacheModel

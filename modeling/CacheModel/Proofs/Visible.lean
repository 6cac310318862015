import Mathlib
import CacheModel.Proofs.Soundness

/-!
# What one request does to what can be seen

From outside a cache shows which lines it holds, which of them are dirty, and what it sends down.
A request changes its own line and at most one other, the line that it evicts; all others stay
where they are and keep their dirty bits.  An evicted line is sent back exactly if it is dirty.
So the line of `a` is dirty after a request exactly if the request wrote to it, or if it was dirty
before and the request sent no writeback of it.
-/

namespace CacheModel

/-- The request below that an effect stands for, if it stands for one. -/
def Effect.forward? : Effect → Option Request
  | notice _ => none
  | forward request => some request

@[simp] theorem Effect.forward?_notice (event : Event) : (notice event).forward? = none := rfl

@[simp] theorem Effect.forward?_forward (request : Request) :
    (forward request).forward? = some request := rfl

/-- The requests that a step sends down, in order. -/
def Step.forwards (s : Step) : List Request :=
  s.effects.filterMap Effect.forward?

namespace Request

/-- The request writes to the line of `a`. -/
def WritesTo (m : AddressMap) (a : UInt64) (r : Request) : Prop :=
  r.isWrite = true ∧ m.tag r.address = m.tag a

/-- Sent down by a cache, the request writes the line of `a` back. -/
def WritesBack (m : AddressMap) (a : UInt64) (r : Request) : Prop :=
  r.isWrite = true ∧ r.address = m.lineBase a

end Request

namespace Cache

/-! ## Requests sent down -/

theorem forwards_of_hit {c : Cache} {r : Request} {way : ℕ} (h : c.find r.address = some way) :
    (c.access r).forwards = [] := by
  rw [access_of_hit h]
  rfl

/-- A miss sends a writeback, if one is due, and then reads the line. -/
theorem forwards_of_miss {c : Cache} {r : Request} (h : c.find r.address = none) :
    (c.access r).forwards =
      (c.writeback? (c.lineFor r.address)).toList ++ [c.fillRequest r.address] := by
  rw [access_of_miss h, Step.forwards, missEffects]
  cases c.logsMisses <;> cases c.writeback? (c.lineFor r.address) <;>
    simp [List.filterMap_cons]

theorem writeback?_eq_some_iff {c : Cache} {line : Line} {q : Request} :
    c.writeback? line = some q ↔ line.valid = true ∧ line.dirty = true ∧
      q = { address := c.geometry.addresses.lineAddress line.tag
            bytes := c.lineBytes
            isWrite := true } := by
  rw [writeback?]
  cases hvalid : line.valid <;> cases hdirty : line.dirty <;> simp [eq_comm]

/-- Of the requests that a step sends down, the ones that write are the writebacks. -/
theorem mem_forwards_write_iff {c : Cache} {r q : Request} :
    q ∈ (c.access r).forwards ∧ q.isWrite = true ↔
      c.find r.address = none ∧ c.writeback? (c.lineFor r.address) = some q := by
  cases hfind : c.find r.address with
  | some way => simp [forwards_of_hit hfind]
  | none =>
    rw [forwards_of_miss hfind]
    simp only [List.mem_append, Option.mem_toList, List.mem_singleton, true_and]
    constructor
    · rintro ⟨hback | rfl, hwrite⟩
      · exact hback
      · cases hwrite
    · intro hback
      refine ⟨Or.inl hback, ?_⟩
      rw [(writeback?_eq_some_iff.mp hback).2.2]

/-- A request that sends a line back does this first, and then reads the missing line. -/
theorem forwards_eq_of_write {c : Cache} {r q : Request} (hmem : q ∈ (c.access r).forwards)
    (hwrite : q.isWrite = true) :
    (c.access r).forwards = [q, c.fillRequest r.address] := by
  obtain ⟨hfind, hback⟩ := mem_forwards_write_iff.mp ⟨hmem, hwrite⟩
  rw [forwards_of_miss hfind, hback]
  rfl

/-! ## Lines held and dirty lines -/

section

variable {c : Cache} (h : c.Sound)
include h

theorem Sound.contains_iff {a : UInt64} :
    c.contains a = true ↔
      ∃ way < c.geometry.ways, (c.store.line (c.setOf a) way).holds (c.tagOf a) = true := by
  rw [contains, Option.isSome_iff_exists]
  exact exists_congr fun way => h.find_iff

/-- A line is only held in the set of its addresses. -/
theorem Sound.set_eq_of_holds {set way : ℕ} {a : UInt64} (hset : set < c.geometry.sets)
    (hway : way < c.geometry.ways) (hholds : (c.store.line set way).holds (c.tagOf a) = true) :
    c.setOf a = set := by
  obtain ⟨hvalid, htag⟩ := Line.holds_iff.mp hholds
  obtain ⟨b, hhome, htag'⟩ := h.home hset hway hvalid
  rw [← hhome]
  exact setOf_eq_of_tagOf_eq (htag'.trans htag).symm

/-- The base of a line that is held is rebuilt from its tag. -/
theorem Sound.lineAddress_tag {set way : ℕ} (hset : set < c.geometry.sets)
    (hway : way < c.geometry.ways) (hvalid : (c.store.line set way).valid = true) :
    ∃ a, c.setOf a = set ∧ c.tagOf a = (c.store.line set way).tag ∧
      c.geometry.addresses.lineAddress (c.store.line set way).tag =
        c.geometry.addresses.lineBase a := by
  obtain ⟨a, hhome, htag⟩ := h.home hset hway hvalid
  refine ⟨a, hhome, htag, ?_⟩
  rw [← htag]
  exact h.valid.lineAddress_tag a

/-- Two places do not hold the same line. -/
theorem Sound.place_unique {set way set' way' : ℕ} (hset : set < c.geometry.sets)
    (hway : way < c.geometry.ways) (hset' : set' < c.geometry.sets)
    (hway' : way' < c.geometry.ways) (hvalid : (c.store.line set way).valid = true)
    (hvalid' : (c.store.line set' way').valid = true)
    (htag : (c.store.line set way).tag = (c.store.line set' way').tag) :
    set = set' ∧ way = way' := by
  obtain ⟨a, rfl, ha⟩ := h.home hset hway hvalid
  obtain ⟨b, rfl, hb⟩ := h.home hset' hway' hvalid'
  have hsame : c.setOf a = c.setOf b := setOf_eq_of_tagOf_eq (ha.trans (htag.trans hb.symm))
  have hholds : (c.store.line (c.setOf a) way).holds (c.tagOf a) = true :=
    Line.holds_iff.mpr ⟨hvalid, ha.symm⟩
  have hholds' : (c.store.line (c.setOf a) way').holds (c.tagOf a) = true := by
    rw [hsame]
    exact Line.holds_iff.mpr ⟨hvalid', htag.symm.trans ha.symm⟩
  exact ⟨hsame, h.store.holds_unique hset hway hway' hholds hholds'⟩

end

theorem Built.find_eq_none {c : Cache} (h : c.Built) (a : UInt64) : c.find a = none := by
  rw [h.sound.find_eq_none_iff]
  intro way _
  rw [h.line_eq]
  rfl

theorem Built.isDirty_eq_none {c : Cache} (h : c.Built) (a : UInt64) : c.isDirty a = none := by
  rw [isDirty, h.find_eq_none, Option.map_none]

theorem contains_of_isDirty {c : Cache} {a : UInt64} {bit : Bool} (h : c.isDirty a = some bit) :
    c.contains a = true := by
  obtain ⟨way, hfind, -⟩ := Option.map_eq_some_iff.mp h
  exact Option.isSome_iff_exists.mpr ⟨way, hfind⟩

/-! ## Lines after a request -/

/-- The line of `a` has to leave its place for the line of the request. -/
def Evicts (c : Cache) (r : Request) (a : UInt64) : Prop :=
  c.find r.address = none ∧ (c.lineFor r.address).holds (c.tagOf a) = true

section

variable {c : Cache} (h : c.Sound)
include h

/-- The line of a request is held after it. -/
theorem Sound.find_access_self (r : Request) :
    (c.access r).cache.find r.address = some (c.access r).outcome.way := by
  rw [(h.access r).find_iff]
  simp only [geometry_access, setOf_access, tagOf_access]
  have hway := h.way_outcome_lt r
  rw [h.line_access r (h.setOf_lt _) hway, if_pos ⟨rfl, rfl⟩]
  exact ⟨hway, Line.holds_iff.mpr ⟨rfl, rfl⟩⟩

/-- The line of a request is dirty after it if the request wrote to it or if it was dirty
before. -/
theorem Sound.isDirty_access_self {r : Request} {a : UInt64}
    (htag : c.tagOf r.address = c.tagOf a) :
    (c.access r).cache.isDirty a = some (r.isWrite || c.isDirty a == some true) := by
  have htag' : (c.access r).cache.tagOf r.address = (c.access r).cache.tagOf a := by
    simpa using htag
  rw [← isDirty_eq_of_tagOf_eq htag', ← isDirty_eq_of_tagOf_eq htag, isDirty, h.find_access_self,
    Option.map_some, setOf_access, h.line_access r (h.setOf_lt _) (h.way_outcome_lt r),
    if_pos ⟨rfl, rfl⟩, lineAfter]

/-- A place that the request leaves alone does not hold the line of the request. -/
theorem Sound.tag_ne_of_place_ne (r : Request) {set way : ℕ} (hset : set < c.geometry.sets)
    (hway : way < c.geometry.ways)
    (hne : ¬ (set = c.setOf r.address ∧ way = (c.access r).outcome.way))
    (hvalid : (c.store.line set way).valid = true) :
    (c.store.line set way).tag ≠ c.tagOf r.address := by
  intro htag
  have hhome := h.setOf_lt r.address
  have hplace := h.way_outcome_lt r
  have hself := h.line_access r hhome hplace
  rw [if_pos ⟨rfl, rfl⟩] at hself
  have hother := h.line_access r hset hway
  rw [if_neg hne] at hother
  refine hne ((h.access r).place_unique (by simpa using hset) (by simpa using hway)
    (by simpa using hhome) (by simpa using hplace) (hother ▸ hvalid) ?_ ?_)
  · rw [hself]
    rfl
  · rw [hself, hother]
    exact htag

/-- Only lines that are held can be evicted, and only from the set of the request. -/
theorem Sound.find_of_evicts {r : Request} {a : UInt64} (hevicts : c.Evicts r a) :
    c.find a = some (c.wayFor r.address) ∧ c.setOf a = c.setOf r.address := by
  obtain ⟨-, hholds⟩ := hevicts
  have hchosen := (h.offers_wayFor r.address).lt
  have hset := h.set_eq_of_holds (h.setOf_lt r.address) hchosen hholds
  exact ⟨h.find_iff.mpr ⟨hchosen, hset ▸ hholds⟩, hset⟩

/-- The dirty bit of an evicted line is the one at the place that it leaves. -/
theorem Sound.isDirty_of_evicts {r : Request} {a : UInt64} (hevicts : c.Evicts r a) :
    c.isDirty a = some (c.lineFor r.address).dirty := by
  obtain ⟨hfind, hset⟩ := h.find_of_evicts hevicts
  rw [isDirty, hfind, hset]
  rfl

/-- A request does not evict its own line. -/
theorem Sound.tag_ne_of_evicts {r : Request} {a : UInt64} (hevicts : c.Evicts r a) :
    c.tagOf r.address ≠ c.tagOf a := by
  intro htag
  have hfound := (h.find_of_evicts hevicts).1
  rw [← find_eq_of_tagOf_eq htag, hevicts.1] at hfound
  cases hfound

/-- A line that is not evicted stays where it is. -/
theorem Sound.line_access_of_holds {r : Request} {a : UInt64}
    (htag : c.tagOf r.address ≠ c.tagOf a) (hstays : ¬ c.Evicts r a) {way : ℕ}
    (hway : way < c.geometry.ways)
    (hholds : (c.store.line (c.setOf a) way).holds (c.tagOf a) = true) :
    (c.access r).cache.store.line (c.setOf a) way = c.store.line (c.setOf a) way := by
  rw [h.line_access r (h.setOf_lt a) hway, if_neg]
  rintro ⟨hset, rfl⟩
  cases hfind : c.find r.address with
  | some found =>
    rw [hset, outcome_eq_hit_iff.mpr hfind, Outcome.way] at hholds
    have hfound := (h.find_iff.mp hfind).2
    exact htag ((Line.holds_iff.mp hfound).2.symm.trans (Line.holds_iff.mp hholds).2)
  | none =>
    rw [hset, access_of_miss hfind, Outcome.way] at hholds
    exact hstays ⟨hfind, hholds⟩

/-- What is held after a request and is not its line was held before. -/
theorem Sound.line_access_of_holds_after {r : Request} {a : UInt64}
    (htag : c.tagOf r.address ≠ c.tagOf a) {way : ℕ} (hway : way < c.geometry.ways)
    (hholds : ((c.access r).cache.store.line (c.setOf a) way).holds (c.tagOf a) = true) :
    (c.access r).cache.store.line (c.setOf a) way = c.store.line (c.setOf a) way := by
  rw [h.line_access r (h.setOf_lt a) hway] at hholds ⊢
  split at hholds
  · exact absurd (Line.holds_iff.mp hholds).2 htag
  · next hne => rw [if_neg hne]

/-- Other lines that are not evicted are found where they were. -/
theorem Sound.find_access_of_not_evicts {r : Request} {a : UInt64}
    (htag : c.tagOf r.address ≠ c.tagOf a) (hstays : ¬ c.Evicts r a) :
    (c.access r).cache.find a = c.find a := by
  apply Option.ext
  intro way
  rw [(h.access r).find_iff, h.find_iff]
  simp only [geometry_access, setOf_access, tagOf_access]
  apply and_congr_right
  intro hway
  constructor
  · intro hafter
    rw [← h.line_access_of_holds_after htag hway hafter]
    exact hafter
  · intro hbefore
    rw [h.line_access_of_holds htag hstays hway hbefore]
    exact hbefore

/-- An evicted line is no longer held. -/
theorem Sound.find_access_of_evicts {r : Request} {a : UInt64} (hevicts : c.Evicts r a) :
    (c.access r).cache.find a = none := by
  obtain ⟨hfind, hset⟩ := h.find_of_evicts hevicts
  obtain ⟨hway, hholds⟩ := h.find_iff.mp hfind
  have htag := h.tag_ne_of_evicts hevicts
  rw [(h.access r).find_eq_none_iff]
  simp only [geometry_access, setOf_access, tagOf_access]
  intro way hway'
  rw [Bool.eq_false_iff]
  intro hafter
  have hsame := h.line_access_of_holds_after htag hway' hafter
  rw [hsame] at hafter
  obtain rfl := h.store.holds_unique (h.setOf_lt a) hway' hway hafter hholds
  -- The place of the line now holds the line of the request.
  rw [h.line_access r (h.setOf_lt a) hway, if_pos ⟨hset, by rw [access_of_miss hevicts.1]; rfl⟩]
    at hsame
  exact htag ((Line.holds_iff.mp hholds).2 ▸ congrArg Line.tag hsame)

/-- A line that is missing after a request was missing before, or it was evicted. -/
theorem Sound.find_eq_none_or_evicts {r : Request} {a : UInt64}
    (hgone : (c.access r).cache.find a = none) : c.find a = none ∨ c.Evicts r a := by
  rw [or_iff_not_imp_right]
  intro hstays
  have htag : c.tagOf r.address ≠ c.tagOf a := by
    intro heq
    have hfound := h.find_access_self r
    rw [find_eq_of_tagOf_eq (by simpa using heq), hgone] at hfound
    cases hfound
  rw [← h.find_access_of_not_evicts htag hstays]
  exact hgone

/-- The dirty bits of other lines that are not evicted stay as they are. -/
theorem Sound.isDirty_access_of_not_evicts {r : Request} {a : UInt64}
    (htag : c.tagOf r.address ≠ c.tagOf a) (hstays : ¬ c.Evicts r a) :
    (c.access r).cache.isDirty a = c.isDirty a := by
  rw [isDirty, isDirty, h.find_access_of_not_evicts htag hstays, setOf_access]
  apply Option.map_congr
  intro way hway
  obtain ⟨hlt, hholds⟩ := h.find_iff.mp hway
  rw [h.line_access_of_holds htag hstays hlt hholds]

/-! ## Writebacks -/

/-- A request sends the line of `a` back exactly if it evicts the line and the line is dirty. -/
theorem Sound.exists_writesBack_iff {r : Request} {a : UInt64} :
    (∃ q ∈ (c.access r).forwards, q.WritesBack c.geometry.addresses a) ↔
      c.Evicts r a ∧ c.isDirty a = some true := by
  have hchosen := (h.offers_wayFor r.address).lt
  have hbase : (c.lineFor r.address).valid = true →
      (c.geometry.addresses.lineAddress (c.lineFor r.address).tag =
        c.geometry.addresses.lineBase a ↔ (c.lineFor r.address).tag = c.tagOf a) := by
    intro hvalid
    obtain ⟨b, -, htag, haddress⟩ := h.lineAddress_tag (h.setOf_lt r.address) hchosen hvalid
    rw [show c.lineFor r.address = c.store.line (c.setOf r.address) (c.wayFor r.address) from rfl,
      haddress, h.valid.lineBase_inj, ← htag]
    rfl
  constructor
  · rintro ⟨q, hmem, hwrite, haddress⟩
    obtain ⟨hfind, hback⟩ := mem_forwards_write_iff.mp ⟨hmem, hwrite⟩
    obtain ⟨hvalid, hbit, rfl⟩ := writeback?_eq_some_iff.mp hback
    have hevicts : c.Evicts r a :=
      ⟨hfind, Line.holds_iff.mpr ⟨hvalid, (hbase hvalid).mp haddress⟩⟩
    exact ⟨hevicts, by rw [h.isDirty_of_evicts hevicts, hbit]⟩
  · rintro ⟨hevicts, hbefore⟩
    obtain ⟨hvalid, htag⟩ := Line.holds_iff.mp hevicts.2
    rw [h.isDirty_of_evicts hevicts] at hbefore
    have hback := (writeback?_eq_some_iff (c := c)).mpr ⟨hvalid, Option.some.inj hbefore, rfl⟩
    obtain ⟨hmem, hwrite⟩ := mem_forwards_write_iff.mpr ⟨hevicts.1, hback⟩
    exact ⟨_, hmem, hwrite, (hbase hvalid).mpr htag⟩

/-- Whatever a request sends down to be written is the writeback of the line that it names. -/
theorem Sound.writesBack_of_mem_forwards {r q : Request} (hmem : q ∈ (c.access r).forwards)
    (hwrite : q.isWrite = true) : q.WritesBack c.geometry.addresses q.address := by
  obtain ⟨-, hback⟩ := mem_forwards_write_iff.mp ⟨hmem, hwrite⟩
  obtain ⟨hvalid, -, hq⟩ := writeback?_eq_some_iff.mp hback
  obtain ⟨a, -, -, haddress⟩ :=
    h.lineAddress_tag (h.setOf_lt r.address) (h.offers_wayFor r.address).lt hvalid
  have hbase : q.address = c.geometry.addresses.lineBase a := by
    rw [hq]
    exact haddress
  refine ⟨hwrite, ?_⟩
  rw [hbase]
  exact (h.valid.lineBase_inj.mpr (h.valid.tag_lineBase a)).symm

/-- After a request a line is dirty if the request wrote to it, or if it was dirty before and was
not evicted. -/
theorem Sound.isDirty_access_iff_not_evicts {r : Request} {a : UInt64} :
    (c.access r).cache.isDirty a = some true ↔
      r.WritesTo c.geometry.addresses a ∨ (c.isDirty a = some true ∧ ¬ c.Evicts r a) := by
  by_cases htag : c.tagOf r.address = c.tagOf a
  · have hstays : ¬ c.Evicts r a := fun hevicts => h.tag_ne_of_evicts hevicts htag
    have hwrites : r.WritesTo c.geometry.addresses a ↔ r.isWrite = true := and_iff_left htag
    rw [h.isDirty_access_self htag, hwrites]
    simp [hstays]
  · have hwrites : ¬ r.WritesTo c.geometry.addresses a := fun hwrites => htag hwrites.2
    by_cases hevicts : c.Evicts r a
    · rw [isDirty, h.find_access_of_evicts hevicts]
      simp [hwrites, hevicts]
    · rw [h.isDirty_access_of_not_evicts htag hevicts]
      simp [hwrites, hevicts]

/-- **The law of the dirty bit.**  After a request a line is dirty if the request wrote to it, or
if it was dirty before and was not sent back. -/
theorem Sound.isDirty_access_iff {r : Request} {a : UInt64} :
    (c.access r).cache.isDirty a = some true ↔
      r.WritesTo c.geometry.addresses a ∨
        (c.isDirty a = some true ∧
          ∀ q ∈ (c.access r).forwards, ¬ q.WritesBack c.geometry.addresses a) := by
  have hback : (∀ q ∈ (c.access r).forwards, ¬ q.WritesBack c.geometry.addresses a) ↔
      ¬ (c.Evicts r a ∧ c.isDirty a = some true) := by
    rw [← h.exists_writesBack_iff]
    simp
  rw [h.isDirty_access_iff_not_evicts, hback]
  tauto

end

/-! ## Reports of misses -/

/-- The same cache, which from now on reports its misses or keeps quiet about them. -/
def reporting (logsMisses : Bool) (c : Cache) : Cache :=
  { c with logsMisses }

theorem Sound.reporting {c : Cache} (h : c.Sound) (logsMisses : Bool) :
    (c.reporting logsMisses).Sound :=
  ⟨h.valid, h.store, h.replacement, h.home⟩

theorem cache_access_reporting (logsMisses : Bool) (c : Cache) (r : Request) :
    ((c.reporting logsMisses).access r).cache = (c.access r).cache.reporting logsMisses := by
  cases hfind : c.find r.address with
  | some way =>
    have hfind' : (c.reporting logsMisses).find r.address = some way := hfind
    rw [access_of_hit hfind, access_of_hit hfind']
    rfl
  | none =>
    have hfind' : (c.reporting logsMisses).find r.address = none := hfind
    rw [access_of_miss hfind, access_of_miss hfind']
    rfl

/-- What is sent down does not depend on the reports. -/
theorem forwards_access_reporting (logsMisses : Bool) (c : Cache) (r : Request) :
    ((c.reporting logsMisses).access r).forwards = (c.access r).forwards := by
  cases hfind : c.find r.address with
  | some way =>
    have hfind' : (c.reporting logsMisses).find r.address = some way := hfind
    rw [forwards_of_hit hfind, forwards_of_hit hfind']
  | none =>
    have hfind' : (c.reporting logsMisses).find r.address = none := hfind
    rw [forwards_of_miss hfind, forwards_of_miss hfind']
    rfl

/-- Reports of misses change nothing in a cache. -/
theorem after_reporting (logsMisses : Bool) (c : Cache) (rs : List Request) :
    (c.reporting logsMisses).after rs = (c.after rs).reporting logsMisses := by
  induction rs generalizing c with
  | nil => rfl
  | cons r rs ih => rw [after_cons, cache_access_reporting, ih, after_cons]

end Cache

end CacheModel

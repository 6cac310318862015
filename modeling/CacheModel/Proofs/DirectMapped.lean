import Mathlib
import CacheModel.Proofs.Independence
import CacheModel.Proofs.Interchange

/-!
# Caches with one way

A set with one way leaves nothing to choose: a missing line goes to the only place there is, whatever
the policy, however the lines are kept and whatever is drawn.  Each set holds the line that was asked
for last among the lines of the set, so that a request hits exactly if the latest request to its set
was for the same line.

Two such caches with as many sets of lines as long therefore go through every run alike, however
long it is: clocks may come round and draws may be as large as they like, for neither is looked at.
-/

namespace CacheModel

namespace Cache

/-! ## The only way -/

section

variable {c : Cache} (h : c.Sound) (hways : c.geometry.ways = 1)
include h hways

theorem Sound.wayFor_eq_zero (a : UInt64) : c.wayFor a = 0 := by
  have hlt := (h.offers_wayFor a).lt
  omega

theorem Sound.way_outcome_eq_zero (r : Request) : (c.access r).outcome.way = 0 := by
  have hlt := h.way_outcome_lt r
  omega

/-- The only place of a set holds the line of the request from then on if it was for this set. -/
theorem Sound.line_access_zero (r : Request) {set : ℕ} (hset : set < c.geometry.sets) :
    (c.access r).cache.store.line set 0 =
      if set = c.setOf r.address then c.lineAfter r else c.store.line set 0 := by
  have hway : 0 < c.geometry.ways := by omega
  rw [h.line_access r hset hway, h.way_outcome_eq_zero hways]
  simp only [and_true]

theorem Sound.contains_iff_of_one_way {a : UInt64} :
    c.contains a = true ↔ (c.store.line (c.setOf a) 0).holds (c.tagOf a) = true := by
  rw [h.contains_iff, hways]
  simp

end

/-! ## What a set holds -/

/-- The latest request to the set of `a` was for the line of `a`. -/
def AskedLast (c : Cache) (past : List Request) (a : UInt64) : Prop :=
  ∃ q, (c.requestsTo (c.setOf a) past).getLast? = some q ∧ c.tagOf q.address = c.tagOf a

/-- With one way a set holds the line that was asked for last. -/
theorem Built.holds_after_iff {c : Cache} (h : c.Built) (hways : c.geometry.ways = 1)
    (rs : List Request) {set : ℕ} (hset : set < c.geometry.sets) {tag : UInt64} :
    ((c.after rs).store.line set 0).holds tag = true ↔
      ∃ q, (c.requestsTo set rs).getLast? = some q ∧ c.tagOf q.address = tag := by
  induction rs using List.reverseRecOn with
  | nil =>
    rw [after_nil, h.line_eq, Line.holds_empty]
    exact iff_of_false Bool.false_ne_true (by simp [requestsTo])
  | append_singleton rs r ih =>
    have hsound := h.sound.after rs
    rw [after_append, after_cons, after_nil, requestsTo_concat,
      hsound.line_access_zero (by rw [geometry_after, hways]) r (by rwa [geometry_after]),
      setOf_after]
    by_cases hhome : c.setOf r.address = set
    · rw [if_pos hhome.symm, if_pos hhome, List.getLast?_concat]
      simp [Line.holds_iff, lineAfter]
    · rw [if_neg (Ne.symm hhome), if_neg hhome, List.append_nil]
      exact ih

theorem Built.contains_after_iff_askedLast {c : Cache} (h : c.Built)
    (hways : c.geometry.ways = 1) (rs : List Request) (a : UInt64) :
    (c.after rs).contains a = true ↔ c.AskedLast rs a := by
  rw [(h.sound.after rs).contains_iff_of_one_way (by rw [geometry_after, hways]), setOf_after,
    tagOf_after, h.holds_after_iff hways rs (h.sound.setOf_lt a), AskedLast]

/-! ## Two caches with one way -/

/-- The caches have one way and as many sets, and their sets hold the same lines.  They may differ in
their stores, in their policies and in what they remember for replacement. -/
structure Mapped (c d : Cache) : Prop where
  sound_left : c.Sound
  ways_eq : c.geometry.ways = 1
  sets_eq : c.geometry.sets = d.geometry.sets
  name_eq : c.name = d.name
  logsMisses_eq : c.logsMisses = d.logsMisses
  counters_eq : c.counters = d.counters
  alike : ∀ {set}, set < c.geometry.sets → c.Alike set d set

namespace Mapped

variable {c d : Cache} (h : c.Mapped d)
include h

theorem sound_right : d.Sound :=
  (h.alike h.sound_left.valid.sets_pos).sound_right

theorem alike_setOf (a : UInt64) : c.Alike (c.setOf a) d (c.setOf a) :=
  h.alike (h.sound_left.setOf_lt a)

theorem setOf_eq (a : UInt64) : d.setOf a = c.setOf a := by
  have haddresses : d.geometry.addresses = c.geometry.addresses := by
    rw [Geometry.addresses, ← (h.alike_setOf a).lineBytes_eq, ← h.sets_eq, Geometry.addresses]
  rw [setOf, haddresses, setOf]

theorem wayFor_eq (a : UInt64) : c.wayFor a = d.wayFor a := by
  have hways : d.geometry.ways = 1 := by rw [← (h.alike_setOf a).ways_eq, h.ways_eq]
  rw [h.sound_left.wayFor_eq_zero h.ways_eq, h.sound_right.wayFor_eq_zero hways]

/-- The caches look alike. -/
theorem view_eq : c.view = d.view := by
  rw [view, view, h.counters_eq]
  congr 1
  · exact residentLines_eq_of_alike h.sound_left h.sound_right h.sets_eq fun _ => h.alike
  · exact funext fun a => (h.alike_setOf a).contains_eq rfl (h.setOf_eq a)
  · exact funext fun a => (h.alike_setOf a).isDirty_eq rfl (h.setOf_eq a)

/-! ### One request -/

variable (r : Request)

theorem outcome_eq : (c.access r).outcome = (d.access r).outcome :=
  (h.alike_setOf r.address).outcome_eq rfl (h.setOf_eq r.address) fun _ => h.wayFor_eq r.address

theorem effects_eq : (c.access r).effects = (d.access r).effects :=
  (h.alike_setOf r.address).effects_eq rfl (h.setOf_eq r.address)
    (fun _ => h.wayFor_eq r.address) h.name_eq h.logsMisses_eq

/-- A request keeps the caches alike. -/
theorem access : (c.access r).cache.Mapped (d.access r).cache where
  sound_left := h.sound_left.access r
  ways_eq := by rw [geometry_access, h.ways_eq]
  sets_eq := by rw [geometry_access, geometry_access, h.sets_eq]
  name_eq := by rw [name_access, name_access, h.name_eq]
  logsMisses_eq := by rw [logsMisses_access, logsMisses_access, h.logsMisses_eq]
  counters_eq := (h.alike_setOf r.address).counters_access rfl (h.setOf_eq r.address)
    (fun _ => h.wayFor_eq r.address) h.counters_eq
  alike {set} := by
    rw [geometry_access]
    intro hset
    by_cases hhome : c.setOf r.address = set
    · subst hhome
      exact (h.alike hset).access rfl (h.setOf_eq r.address) fun _ => h.wayFor_eq r.address
    · have hother : d.setOf r.address ≠ set := by rwa [h.setOf_eq]
      exact (((h.alike hset).access_left hhome).symm.access_left hother).symm

end Mapped

theorem Mapped.after {c d : Cache} (h : c.Mapped d) (rs : List Request) :
    (c.after rs).Mapped (d.after rs) := by
  induction rs generalizing c d with
  | nil => exact h
  | cons r rs ih => exact ih (h.access r)

section

variable {g : Geometry} {kind kind' : StoreKind} (hvalid : g.Valid)
  (hkind : kind = .map → g.sets = 1) (hkind' : kind' = .map → g.sets = 1)
include hvalid hkind hkind'

/-- New caches of one shape with one way hold the same lines, which are none. -/
theorem mapped_fresh (hways : g.ways = 1) (policy policy' : Policy) (name : String)
    (source source' : Source) :
    (fresh kind { g with policy := policy } name source).Mapped
      (fresh kind' { g with policy := policy' } name source') where
  sound_left := sound_fresh name source (hvalid.withPolicy policy) hkind
  ways_eq := hways
  sets_eq := rfl
  name_eq := rfl
  logsMisses_eq := rfl
  counters_eq := rfl
  alike {set} hset :=
    { sound_left := sound_fresh name source (hvalid.withPolicy policy) hkind
      sound_right := sound_fresh name source' (hvalid.withPolicy policy') hkind'
      set_lt_left := hset
      set_lt_right := hset
      ways_eq := rfl
      lineBytes_eq := rfl
      line_eq := fun way _ => (TagStore.line_fresh kind g.sets g.ways set way).trans
        (TagStore.line_fresh kind' g.sets g.ways set way).symm }

end

/-- **With one way the policy does not matter.**  For every shape with one way that a cache can have,
caches can be built under any two policies, with any sources of draws, and with an array or, if there
is a single set, with a map.  In every run both find the same lines, cause the same effects, requests
to the next level among them, and look the same.  A request hits exactly if the latest request to its
set was for its line. -/
theorem one_way_leaves_no_choice {g : Geometry} (hcheck : g.check = .ok g) (hways : g.ways = 1)
    {kind kind' : StoreKind} (hkind : kind = .map → g.sets = 1)
    (hkind' : kind' = .map → g.sets = 1) (policy policy' : Policy) (name : String)
    (source source' : Source) :
    ∃ c d, buildWith kind { g with policy := policy } name source = .ok c ∧
      buildWith kind' { g with policy := policy' } name source' = .ok d ∧
      ∀ past r,
        ((c.after past).access r).outcome = ((d.after past).access r).outcome ∧
        ((c.after past).access r).effects = ((d.after past).access r).effects ∧
        (c.after past).view = (d.after past).view ∧
        (((c.after past).access r).outcome.isHit = true ↔ c.AskedLast past r.address) := by
  obtain ⟨-, hvalid⟩ := Geometry.valid_of_check hcheck
  have hbuild := buildWith_of_valid kind name source (hvalid.withPolicy policy)
  have hbuild' := buildWith_of_valid kind' name source' (hvalid.withPolicy policy')
  refine ⟨_, _, hbuild, hbuild', fun past r => ?_⟩
  have hmapped := (mapped_fresh hvalid hkind hkind' hways policy policy' name source source').after
    past
  have hbuilt := Built.of_buildWith (g := { g with policy := policy }) hkind hbuild
  refine ⟨hmapped.outcome_eq r, hmapped.effects_eq r, hmapped.view_eq, ?_⟩
  rw [isHit_outcome, hbuilt.contains_after_iff_askedLast hways]

/-- An array under LRU against a map under random replacement with draws that could not be larger:
both write the same line back, and the third request hits because the second one was for its line. -/
theorem one_way_leaves_no_choice_large_draws :
    let c := fresh .array ⟨1, 1, 8, .lru⟩ "D$" default
    let d := fresh .map ⟨1, 1, 8, .random⟩ "D$" (.cycle [0xffffffff])
    let past : List Request := [⟨0, 8, true⟩, ⟨12, 4, true⟩]
    (Geometry.mk 1 1 8 .lru).check = .ok ⟨1, 1, 8, .lru⟩ ∧
      (Geometry.mk 1 1 8 .lru).ways = 1 ∧ (Geometry.mk 1 1 8 .lru).sets = 1 ∧
      ((d.after past).access ⟨8, 8, false⟩).outcome.isHit = true ∧
      ((d.after past).access ⟨0, 8, false⟩).outcome =
        .miss 0 { tag := 1, valid := true, dirty := true } ∧
      ((d.after past).access ⟨0, 8, false⟩).effects = [.notice (.wroteBack "D$" 8),
        .forward ⟨8, 8, true⟩, .forward ⟨0, 8, false⟩] ∧
      (c.after past).view = (d.after past).view := by
  intro c d past
  have hcheck : (Geometry.mk 1 1 8 .lru).check = .ok ⟨1, 1, 8, .lru⟩ := by decide
  obtain ⟨c', d', hc, hd, hsame⟩ := one_way_leaves_no_choice hcheck rfl
    (by decide : StoreKind.array = .map → 1 = 1) (by decide : StoreKind.map = .map → 1 = 1)
    .lru .random "D$" default (.cycle [0xffffffff])
  obtain rfl : c = c' := Except.ok.inj hc
  obtain rfl : d = d' := Except.ok.inj hd
  obtain ⟨houtcome, heffects, hview, -⟩ := hsame past ⟨0, 8, false⟩
  obtain ⟨houtcome', -, -, hhit⟩ := hsame past ⟨8, 8, false⟩
  refine ⟨hcheck, rfl, rfl, ?_, ?_, ?_, hview⟩
  · rw [← houtcome']
    exact hhit.mpr ⟨⟨12, 4, true⟩, by decide, by decide⟩
  · rw [← houtcome]
    decide
  · rw [← heffects]
    decide

end Cache

end CacheModel

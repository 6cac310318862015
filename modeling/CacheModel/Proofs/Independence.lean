import Mathlib
import CacheModel.Proofs.Alike

/-!
# Sets are independent

Under the ordered policies all sets share one clock, so what a set is stamped with tells of the
requests to all other sets too.  But the choice of a victim compares stamps of one set only, and a
request that stamps a way makes its stamp the latest of the set, whatever the clock shows.  So a set
goes through a run as if the requests to the other sets had not been made: it holds the same lines,
at the same ways and stamped in the same order, as the only set of a cache that serves the requests
to this set alone.

Two caches are *in step* at a set of each if these sets hold the same lines and were stamped in the
same order.  A request to both sets keeps them in step, and so does a request that the first cache
serves in another set.
-/

namespace CacheModel

namespace Cache

/-! ## Stamps of one set -/

/-- The cache is stamped, and no stamp of the set is ahead of the clock. -/
structure Timed (c : Cache) (i : ℕ) (s : Stamps) : Prop where
  stamps?_eq : c.replacement.stamps? = some s
  stamp_le : ∀ way < c.geometry.ways, (s.stamp i way).toNat ≤ s.clock.toNat

/-- A way that is stamped gets the latest stamp, and all others keep theirs. -/
theorem Timed.access {c : Cache} {i : ℕ} {s : Stamps} (htimed : c.Timed i s) (h : c.Sound)
    (hclock : s.clock.toNat + 1 < 2 ^ 64) (r : Request) :
    ∃ s', s'.clock.toNat = s.clock.toNat + 1 ∧ (c.access r).cache.Timed i s' ∧
      (c.access r).cache.replacement.policy = c.replacement.policy ∧
      ∀ way < c.geometry.ways, s'.stamp i way =
        if c.Marks r i way then s'.clock else s.stamp i way := by
  obtain ⟨s', hpolicy, hafter, hclock', hstamp⟩ :=
    h.exists_stamps?_access htimed.stamps?_eq hclock r
  refine ⟨s', hclock', ⟨hafter, fun way hway => ?_⟩, hpolicy, fun way => hstamp⟩
  rw [geometry_access] at hway
  have hle := htimed.stamp_le way hway
  rw [hstamp hway]
  split
  · exact le_rfl
  · omega

theorem Built.timed {c : Cache} (h : c.Built) (hstamped : c.geometry.policy.isStamped = true)
    (i : ℕ) : c.Timed i (.fresh c.geometry.sets c.geometry.ways) where
  stamps?_eq := h.stamps?_eq hstamped
  stamp_le way _ := by
    rw [Stamps.stamp_fresh]
    exact Nat.zero_le _

/-! ## Two caches in step -/

/-- The set `i` of one cache and the set `j` of another one hold the same lines, and their ways were
stamped in the same order. -/
structure InStep (c : Cache) (i : ℕ) (s : Stamps) (d : Cache) (j : ℕ) (t : Stamps) : Prop where
  alike : c.Alike i d j
  policy_eq : c.replacement.policy = d.replacement.policy
  timed_left : c.Timed i s
  timed_right : d.Timed j t
  order_iff : ∀ way < c.geometry.ways, ∀ way' < c.geometry.ways,
    ((s.stamp i way).toNat ≤ (s.stamp i way').toNat ↔
      (t.stamp j way).toNat ≤ (t.stamp j way').toNat)

namespace InStep

variable {c d : Cache} {i j : ℕ} {s t : Stamps} (h : c.InStep i s d j t)
include h

theorem symm : d.InStep j t c i s where
  alike := h.alike.symm
  policy_eq := h.policy_eq.symm
  timed_left := h.timed_right
  timed_right := h.timed_left
  order_iff way hway way' hway' :=
    (h.order_iff way (h.alike.ways_eq ▸ hway) way' (h.alike.ways_eq ▸ hway')).symm

/-- Caches in step choose the same way for a missing line. -/
theorem wayFor_eq {a : UInt64} (hi : c.setOf a = i) (hj : d.setOf a = j) :
    c.wayFor a = d.wayFor a := by
  rw [h.alike.sound_left.wayFor_of_stamps h.timed_left.stamps?_eq,
    h.alike.sound_right.wayFor_of_stamps h.timed_right.stamps?_eq, hi, hj, ← h.alike.places_eq]
  apply Stamps.victim_congr
  simpa using h.order_iff

/-- A request to both sets keeps the caches in step. -/
theorem access (hclock : s.clock.toNat + 1 < 2 ^ 64) (hclock' : t.clock.toNat + 1 < 2 ^ 64)
    {r : Request} (hi : c.setOf r.address = i) (hj : d.setOf r.address = j) :
    ∃ s' t', s'.clock.toNat = s.clock.toNat + 1 ∧ t'.clock.toNat = t.clock.toNat + 1 ∧
      (c.access r).cache.InStep i s' (d.access r).cache j t' := by
  have hway := fun _ : c.find r.address = none => h.wayFor_eq hi hj
  have hmarks : ∀ way, d.Marks r j way ↔ c.Marks r i way := by
    intro way
    rw [Marks, Marks, restamps, restamps, h.policy_eq, h.alike.contains_eq hi hj,
      h.alike.outcome_eq hi hj hway, hi, hj]
    simp
  obtain ⟨s', hs', htimed, hpolicy, hstamp⟩ := h.timed_left.access h.alike.sound_left hclock r
  obtain ⟨t', ht', htimed', hpolicy', hstamp'⟩ :=
    h.timed_right.access h.alike.sound_right hclock' r
  refine ⟨s', t', hs', ht', h.alike.access hi hj hway, ?_, htimed, htimed', ?_⟩
  · rw [hpolicy, hpolicy', h.policy_eq]
  · simp only [geometry_access, h.alike.ways_eq]
    intro way hlt way' hlt'
    have hlt₁ := h.alike.ways_eq ▸ hlt
    have hlt₂ := h.alike.ways_eq ▸ hlt'
    have horder := h.order_iff way hlt₁ way' hlt₂
    have hle := h.timed_left.stamp_le way hlt₁
    have hle' := h.timed_left.stamp_le way' hlt₂
    have hbound := h.timed_right.stamp_le way hlt
    have hbound' := h.timed_right.stamp_le way' hlt'
    rw [hstamp way hlt₁, hstamp way' hlt₂, hstamp' way hlt, hstamp' way' hlt']
    simp only [hmarks]
    -- A stamp that is new is later than all others, in both sets.
    by_cases hnew : c.Marks r i way <;> by_cases hnew' : c.Marks r i way' <;>
      simp only [hnew, hnew', if_true, if_false] <;> omega

/-- A request that the first cache serves in another set keeps the caches in step. -/
theorem access_left (hclock : s.clock.toNat + 1 < 2 ^ 64) {r : Request}
    (hother : c.setOf r.address ≠ i) :
    ∃ s', s'.clock.toNat = s.clock.toNat + 1 ∧ (c.access r).cache.InStep i s' d j t := by
  obtain ⟨s', hs', htimed, hpolicy, hstamp⟩ := h.timed_left.access h.alike.sound_left hclock r
  refine ⟨s', hs', h.alike.access_left hother, hpolicy.trans h.policy_eq, htimed, h.timed_right, ?_⟩
  rw [geometry_access]
  intro way hlt way' hlt'
  rw [hstamp way hlt, hstamp way' hlt', if_neg fun hmark => hother hmark.2.1.symm,
    if_neg fun hmark => hother hmark.2.1.symm]
  exact h.order_iff way hlt way' hlt'

end InStep

/-! ## One set of a run -/

/-- The requests of a run that go to one set, in order. -/
def requestsTo (c : Cache) (set : ℕ) (rs : List Request) : List Request :=
  rs.filter fun r => c.setOf r.address = set

theorem requestsTo_concat (c : Cache) (set : ℕ) (rs : List Request) (r : Request) :
    c.requestsTo set (rs ++ [r]) =
      c.requestsTo set rs ++ if c.setOf r.address = set then [r] else [] := by
  by_cases h : c.setOf r.address = set <;> simp [requestsTo, h]

theorem length_requestsTo_le (c : Cache) (set : ℕ) (rs : List Request) :
    (c.requestsTo set rs).length ≤ rs.length :=
  List.length_filter_le _ _

/-- Two new caches under an ordered policy, of which the second one is a single set of the first
one. -/
structure Slices (c d : Cache) : Prop where
  built_left : c.Built
  built_right : d.Built
  stamped : c.geometry.policy.isStamped = true
  geometry_eq : d.geometry = { c.geometry with sets := 1 }

namespace Slices

variable {c d : Cache} (h : c.Slices d)
include h

theorem setOf_eq_zero (rs : List Request) (a : UInt64) : (d.after rs).setOf a = 0 :=
  (h.built_right.sound.after rs).setOf_eq_zero (by rw [geometry_after, h.geometry_eq]) a

theorem inStep {set : ℕ} (hset : set < c.geometry.sets) :
    c.InStep set (.fresh c.geometry.sets c.geometry.ways) d 0
      (.fresh d.geometry.sets d.geometry.ways) where
  alike :=
    { sound_left := h.built_left.sound
      sound_right := h.built_right.sound
      set_lt_left := hset
      set_lt_right := h.built_right.sound.valid.sets_pos
      ways_eq := by rw [h.geometry_eq]
      lineBytes_eq := by rw [h.geometry_eq]
      line_eq := fun way _ => by rw [h.built_left.line_eq, h.built_right.line_eq] }
  policy_eq := by
    rw [h.built_left.policy_replacement, h.built_right.policy_replacement, h.geometry_eq]
  timed_left := h.built_left.timed h.stamped set
  timed_right := h.built_right.timed (by rw [h.geometry_eq]; exact h.stamped) 0
  order_iff way _ way' _ := by simp only [Stamps.stamp_fresh]

/-- A set goes through a run in step with the cache that serves the requests to the set alone. -/
theorem exists_inStep_after {set : ℕ} (hset : set < c.geometry.sets) {rs : List Request}
    (hcount : rs.length < 2 ^ 64) :
    ∃ s t, s.clock.toNat = rs.length ∧ t.clock.toNat = (c.requestsTo set rs).length ∧
      (c.after rs).InStep set s (d.after (c.requestsTo set rs)) 0 t := by
  induction rs using List.reverseRecOn with
  | nil => exact ⟨_, _, rfl, rfl, h.inStep hset⟩
  | append_singleton rs r ih =>
    rw [List.length_append, List.length_singleton] at hcount
    obtain ⟨s, t, hs, ht, hstep⟩ := ih (by omega)
    have hle := c.length_requestsTo_le set rs
    rw [requestsTo_concat, after_append, List.length_append, List.length_singleton]
    by_cases hhome : c.setOf r.address = set
    · obtain ⟨s', t', hs', ht', hnext⟩ := hstep.access (by omega) (by omega)
        (by rwa [setOf_after]) (h.setOf_eq_zero _ _)
      rw [if_pos hhome, after_append, List.length_append, List.length_singleton]
      exact ⟨s', t', by omega, by omega, hnext⟩
    · obtain ⟨s', hs', hnext⟩ := hstep.access_left (by omega) (by rwa [setOf_after])
      rw [if_neg hhome, List.append_nil]
      exact ⟨s', t, by omega, ht, hnext⟩

/-- After a run the set of an address holds the same lines as the cache that served the requests to
the set alone, and chooses the same way for a missing line. -/
theorem alike_after {rs : List Request} (hcount : rs.length < 2 ^ 64) (a : UInt64) :
    let alone := d.after (c.requestsTo (c.setOf a) rs)
    (c.after rs).Alike (c.setOf a) alone 0 ∧ (c.after rs).wayFor a = alone.wayFor a := by
  intro alone
  obtain ⟨s, t, -, -, hstep⟩ := h.exists_inStep_after (h.built_left.sound.setOf_lt a) hcount
  exact ⟨hstep.alike, hstep.wayFor_eq (setOf_after c rs a) (h.setOf_eq_zero _ a)⟩

/-- A request is answered as it is by the cache that serves its set alone. -/
theorem access_eq {past : List Request} (hcount : past.length < 2 ^ 64) (r : Request) :
    let alone := (d.after (c.requestsTo (c.setOf r.address) past)).access r
    ((c.after past).access r).outcome = alone.outcome ∧
      ((c.after past).access r).forwards = alone.forwards := by
  obtain ⟨halike, hway⟩ := h.alike_after hcount r.address
  have hi := setOf_after c past r.address
  have hj := h.setOf_eq_zero (c.requestsTo (c.setOf r.address) past) r.address
  exact ⟨halike.outcome_eq hi hj fun _ => hway, halike.forwards_eq hi hj fun _ => hway⟩

/-- The lines of a set are those of the cache that serves the set alone. -/
theorem seen_eq {rs : List Request} (hcount : rs.length < 2 ^ 64) (a : UInt64) :
    let alone := d.after (c.requestsTo (c.setOf a) rs)
    (c.after rs).contains a = alone.contains a ∧ (c.after rs).isDirty a = alone.isDirty a := by
  have halike := (h.alike_after hcount a).1
  have hi := setOf_after c rs a
  have hj := h.setOf_eq_zero (c.requestsTo (c.setOf a) rs) a
  exact ⟨halike.contains_eq hi hj, halike.isDirty_eq hi hj⟩

/-- What a request adds to a counter, it adds in the cache of its set. -/
theorem tally_eq_sum (q : Counter) {rs : List Request} (hcount : rs.length < 2 ^ 64) :
    tally (charge q) c rs =
      ∑ set ∈ Finset.range c.geometry.sets, tally (charge q) d (c.requestsTo set rs) := by
  induction rs using List.reverseRecOn with
  | nil => simp [requestsTo]
  | append_singleton rs r ih =>
    rw [List.length_append, List.length_singleton] at hcount
    have hbefore : rs.length < 2 ^ 64 := by omega
    obtain ⟨halike, hway⟩ := h.alike_after hbefore r.address
    have hcharge := halike.charge_eq (setOf_after c rs _) (h.setOf_eq_zero _ _) (fun _ => hway) q
    have hsplit : ∀ set, tally (charge q) d (c.requestsTo set (rs ++ [r])) =
        tally (charge q) d (c.requestsTo set rs) +
          if c.setOf r.address = set then charge q (c.after rs) r else 0 := by
      intro set
      rw [requestsTo_concat, tally_append]
      split
      · next heq =>
        subst heq
        rw [hcharge, tally, tally_nil, Nat.add_zero]
      · rfl
    have hhome := h.built_left.sound.setOf_lt r.address
    simp only [hsplit, Finset.sum_add_distrib, Finset.sum_ite_eq, Finset.mem_range, hhome, if_true]
    rw [tally_concat, ih hbefore]

end Slices

/-- **Sets are independent.**  Let a cache with an array under an ordered policy serve any run that
its clock can count.  A cache with a single set of the same ways, lines and policy can be built, and
when it serves only the requests that go to one set of the first cache, unchanged and in order, it
has the same hits and misses at the same ways, sends the same requests down, and at every moment
holds the same lines of the set, the same of them dirty.  Every counter of the cache is the sum of
the counters of the caches of its sets, modulo the size of a word. -/
theorem sets_are_independent {g : Geometry} {name : String} {source : Source} {c : Cache}
    (hstamped : g.policy.isStamped = true) (hbuild : buildWith .array g name source = .ok c)
    (name' : String) (source' : Source) :
    ∃ d, buildWith .array { g with sets := 1 } name' source' = .ok d ∧
      ∀ rs : List Request, rs.length < 2 ^ 64 →
        (∀ set < g.sets,
          (∀ past r later, rs = past ++ r :: later → c.setOf r.address = set →
            let shared := (c.after past).access r
            let alone := (d.after (c.requestsTo set past)).access r
            shared.outcome = alone.outcome ∧ shared.forwards = alone.forwards) ∧
          ∀ a, c.setOf a = set →
            (c.after rs).contains a = (d.after (c.requestsTo set rs)).contains a ∧
              (c.after rs).isDirty a = (d.after (c.requestsTo set rs)).isDirty a) ∧
        ∀ q : Counter, ((c.after rs).counters.get q).toNat ≡
          ∑ set ∈ Finset.range g.sets,
            ((d.after (c.requestsTo set rs)).counters.get q).toNat [MOD 2 ^ 64] := by
  obtain ⟨hvalid, heq⟩ := eq_fresh_of_buildWith hbuild
  have hgeometry : c.geometry = g := by
    rw [heq]
    rfl
  have hbuild' := buildWith_of_valid .array name' source' hvalid.oneSet
  have h : c.Slices (fresh .array { g with sets := 1 } name' source') :=
    ⟨.setAssociative hbuild, .setAssociative hbuild', hgeometry ▸ hstamped, hgeometry ▸ rfl⟩
  refine ⟨_, hbuild', fun rs hcount => ⟨fun set _ => ⟨?_, ?_⟩, fun q => ?_⟩⟩
  · rintro past r later rfl rfl
    exact h.access_eq (lt_of_le_of_lt (by simp) hcount) r
  · rintro a rfl
    exact h.seen_eq hcount a
  · have hsum := h.tally_eq_sum q hcount
    rw [hgeometry] at hsum
    calc ((c.after rs).counters.get q).toNat
        ≡ tally (charge q) c rs [MOD 2 ^ 64] := h.built_left.toNat_get_after_modEq rs q
      _ = ∑ set ∈ Finset.range g.sets, tally (charge q) _ (c.requestsTo set rs) := hsum
      _ ≡ _ [MOD 2 ^ 64] :=
        Nat.ModEq.sum fun set _ => (h.built_right.toNat_get_after_modEq _ q).symm

/-- Two sets of two ways: the requests to the odd line come between, and still the third line of
the other set replaces the one that was used last but one. -/
theorem sets_are_independent_two_sets :
    let c := fresh .array ⟨2, 2, 8, .lru⟩ "L1$" default
    let d := fresh .array ⟨1, 2, 8, .lru⟩ "set" default
    let past : List Request :=
      [⟨0, 8, true⟩, ⟨8, 8, true⟩, ⟨16, 8, false⟩, ⟨0, 8, false⟩, ⟨8, 8, false⟩]
    let r : Request := ⟨32, 8, false⟩
    Policy.lru.isStamped = true ∧ buildWith .array ⟨2, 2, 8, .lru⟩ "L1$" default = .ok c ∧
      (past ++ [r]).length < 2 ^ 64 ∧ c.setOf r.address = 0 ∧
      c.requestsTo 0 past = [⟨0, 8, true⟩, ⟨16, 8, false⟩, ⟨0, 8, false⟩] ∧
      ((c.after past).access r).outcome =
        ((d.after [⟨0, 8, true⟩, ⟨16, 8, false⟩, ⟨0, 8, false⟩]).access r).outcome ∧
      ((c.after past).access r).outcome = .miss 1 { tag := 2, valid := true, dirty := false } ∧
      ((c.after (past ++ [r])).counters.get .readMisses).toNat ≡
        ∑ set ∈ Finset.range 2,
          ((d.after (c.requestsTo set (past ++ [r]))).counters.get .readMisses).toNat
            [MOD 2 ^ 64] := by
  intro c d past r
  have hbuild : buildWith .array ⟨2, 2, 8, .lru⟩ "L1$" default = .ok c := rfl
  have hcount : (past ++ [r]).length < 2 ^ 64 := by decide
  have hset : c.setOf r.address = 0 := by decide
  have hpart : c.requestsTo 0 past = [⟨0, 8, true⟩, ⟨16, 8, false⟩, ⟨0, 8, false⟩] := by decide
  obtain ⟨d', hd, hsets⟩ := sets_are_independent rfl hbuild "set" default
  obtain rfl : d = d' := Except.ok.inj hd
  obtain ⟨hset₀, hsum⟩ := hsets _ hcount
  obtain ⟨houtcome, -⟩ := (hset₀ 0 (by decide)).1 past r [] rfl hset
  rw [hpart] at houtcome
  exact ⟨rfl, hbuild, hcount, hset, hpart, houtcome, by decide, hsum .readMisses⟩

end Cache

end CacheModel

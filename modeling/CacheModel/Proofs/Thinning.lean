import Mathlib
import CacheModel.Proofs.Independence
import CacheModel.Proofs.SameLines

/-!
# Requests that make no difference

Under FIFO and random replacement a hit changes nothing that a later choice depends on, and under
LRU neither does a request for the line that was asked for last in its set: the stamp of this line
is the latest of the set already.  Such requests can be dropped from a run, any number of them and
anywhere, and all other requests are answered as before.

To drop a request shifts the clock for all that come later.  What is kept is the order of the
stamps in each set; so the two runs are compared set by set, as caches in step.  Under random
replacement there is no clock, and a hit spends no draw.

If a request that is dropped writes, the dirty bits may differ from then on.  They are never looked
at, so the run can be compared with one that only reads.
-/

namespace CacheModel

/-- The request as a read. -/
def Request.reading (r : Request) : Request :=
  { r with isWrite := false }

/-! ## Runs of which a part is dropped -/

/-- The requests of a run, those that are marked to be dropped among them. -/
def wholeRun (run : List (Request × Bool)) : List Request :=
  run.map Prod.fst

/-- The requests that are left of the run. -/
def keptRun (run : List (Request × Bool)) : List Request :=
  (run.filter Prod.snd).map Prod.fst

section

variable (run : List (Request × Bool)) (r : Request)

theorem wholeRun_concat (stays : Bool) : wholeRun (run ++ [(r, stays)]) = wholeRun run ++ [r] := by
  simp [wholeRun]

theorem keptRun_concat_true : keptRun (run ++ [(r, true)]) = keptRun run ++ [r] := by
  simp [keptRun]

theorem keptRun_concat_false : keptRun (run ++ [(r, false)]) = keptRun run := by
  simp [keptRun]

theorem length_wholeRun : (wholeRun run).length = run.length :=
  List.length_map _

theorem length_keptRun_le : (keptRun run).length ≤ run.length :=
  (List.length_map _).trans_le (List.length_filter_le _ _)

end

namespace Cache

/-- After these requests another one makes no difference to those that come later: it hits, and
under LRU it is for the line that was asked for last in its set. -/
def Redundant (c : Cache) (past : List Request) (r : Request) : Prop :=
  match c.geometry.policy with
  | .lru => ∃ q, (c.requestsTo (c.setOf r.address) past).getLast? = some q ∧
      c.tagOf q.address = c.tagOf r.address
  | .fifo => ((c.after past).access r).outcome.isHit = true
  | .random => ((c.after past).access r).outcome.isHit = true

/-- All requests that are dropped from the run are redundant where they stand. -/
def Thins (c : Cache) (run : List (Request × Bool)) : Prop :=
  ∀ past r later, run = past ++ (r, false) :: later → c.Redundant (wholeRun past) r

/-- All requests that are dropped from the run are reads. -/
def DropsReads (run : List (Request × Bool)) : Prop :=
  ∀ r, (r, false) ∈ run → r.isWrite = false

theorem Thins.of_append {c : Cache} {run later : List (Request × Bool)}
    (h : c.Thins (run ++ later)) : c.Thins run := by
  rintro past r rest rfl
  exact h past r (rest ++ later) (by simp)

theorem DropsReads.of_append {run later : List (Request × Bool)}
    (h : DropsReads (run ++ later)) : DropsReads run :=
  fun r hr => h r (List.mem_append_left later hr)

theorem Thins.redundant {c : Cache} {run : List (Request × Bool)} {r : Request}
    (h : c.Thins (run ++ [(r, false)])) : c.Redundant (wholeRun run) r :=
  h run r [] rfl

/-! ## The line that was asked for last -/

/-- The line of `a` carries the latest stamp of its set. -/
def Latest (c : Cache) (s : Stamps) (a : UInt64) : Prop :=
  ∃ way, c.find a = some way ∧ ∀ way' < c.geometry.ways, way' ≠ way →
    (s.stamp (c.setOf a) way').toNat < (s.stamp (c.setOf a) way).toNat

theorem Latest.of_tagOf_eq {c : Cache} {s : Stamps} {a b : UInt64} (h : c.Latest s a)
    (htag : c.tagOf a = c.tagOf b) : c.Latest s b := by
  rw [Latest, ← find_eq_of_tagOf_eq htag, ← setOf_eq_of_tagOf_eq htag]
  exact h

section

variable {c : Cache} (h : c.Sound) {s s' : Stamps} {r : Request}
include h

/-- A request under LRU makes its line the latest of the set. -/
theorem Sound.latest_access_self (hlru : c.replacement.policy = .lru)
    (htimed : c.Timed (c.setOf r.address) s) (hclock : s'.clock.toNat = s.clock.toNat + 1)
    (hstamp : ∀ way < c.geometry.ways, s'.stamp (c.setOf r.address) way =
      if c.Marks r (c.setOf r.address) way then s'.clock else s.stamp (c.setOf r.address) way) :
    (c.access r).cache.Latest s' r.address := by
  have hmarks : ∀ way, c.Marks r (c.setOf r.address) way ↔ way = (c.access r).outcome.way := by
    intro way
    simp [Marks, restamps, hlru]
  refine ⟨_, h.find_access_self r, ?_⟩
  rw [geometry_access, setOf_access]
  intro way hway hne
  rw [hstamp way hway, hstamp _ (h.way_outcome_lt r), if_neg (mt (hmarks way).mp hne),
    if_pos ((hmarks _).mpr rfl)]
  have hle := htimed.stamp_le way hway
  omega

/-- A request to another set leaves the latest line of the set what it was. -/
theorem Sound.latest_access_other {a : UInt64} (hlatest : c.Latest s a)
    (hother : c.setOf r.address ≠ c.setOf a)
    (hstamp : ∀ way < c.geometry.ways, s'.stamp (c.setOf a) way =
      if c.Marks r (c.setOf a) way then s'.clock else s.stamp (c.setOf a) way) :
    (c.access r).cache.Latest s' a := by
  have htag : c.tagOf r.address ≠ c.tagOf a := mt setOf_eq_of_tagOf_eq hother
  have hstays : ¬ c.Evicts r a := fun hevicts => hother (h.find_of_evicts hevicts).2.symm
  have hkept : ∀ way < c.geometry.ways, s'.stamp (c.setOf a) way = s.stamp (c.setOf a) way :=
    fun way hway => (hstamp way hway).trans (if_neg fun hmark => hother hmark.2.1.symm)
  obtain ⟨way, hfind, hlater⟩ := hlatest
  refine ⟨way, by rw [h.find_access_of_not_evicts htag hstays, hfind], ?_⟩
  rw [geometry_access, setOf_access]
  intro way' hway' hne
  rw [hkept way' hway', hkept way (h.find_iff.mp hfind).1]
  exact hlater way' hway' hne

end

/-- Under LRU the line that was asked for last in a set is the latest of the set. -/
theorem Built.exists_latest {c : Cache} (h : c.Built) (hlru : c.geometry.policy = .lru) (set : ℕ)
    {rs : List Request} (hcount : rs.length < 2 ^ 64) :
    ∃ s, s.clock.toNat = rs.length ∧ (c.after rs).Timed set s ∧
      ∀ q, (c.requestsTo set rs).getLast? = some q → (c.after rs).Latest s q.address := by
  induction rs using List.reverseRecOn with
  | nil =>
    exact ⟨_, rfl, h.timed (by rw [hlru]; rfl) set, nofun⟩
  | append_singleton rs r ih =>
    rw [List.length_append, List.length_singleton] at hcount
    obtain ⟨s, hs, htimed, hlatest⟩ := ih (by omega)
    have hsound := h.sound.after rs
    obtain ⟨s', hs', htimed', -, hstamp⟩ := htimed.access hsound (by omega) r
    rw [after_append, after_cons, after_nil]
    refine ⟨s', by simp [hs', hs], htimed', fun q hq => ?_⟩
    rw [requestsTo_concat] at hq
    split at hq
    · next hhome =>
      obtain rfl : r = q := by simpa using hq
      subst hhome
      rw [← setOf_after c rs] at htimed hstamp
      exact hsound.latest_access_self (by rw [h.policy_after, hlru]) htimed hs' hstamp
    · next hother =>
      rw [List.append_nil] at hq
      have hset : c.setOf q.address = set :=
        of_decide_eq_true (List.mem_filter.mp (List.mem_of_getLast? hq)).2
      subst hset
      rw [← setOf_after c rs q.address] at hstamp
      exact hsound.latest_access_other (hlatest q hq) (by simpa using hother) hstamp

/-! ## One request that is dropped -/

/-- A read that hits leaves the lines as they are. -/
theorem store_access_of_read_hit {c : Cache} {r : Request} (hread : r.isWrite = false)
    (hhit : c.contains r.address = true) : (c.access r).cache.store = c.store := by
  obtain ⟨way, hfind⟩ := Option.isSome_iff_exists.mp hhit
  rw [store_access_of_hit hfind, hread]
  rfl

/-- A read that hits, and stamps at most the latest way of its set, keeps the caches in step. -/
theorem InStep.access_left_of_latest {c d : Cache} {i j : ℕ} {s t : Stamps}
    (h : c.InStep i s d j t) (hclock : s.clock.toNat + 1 < 2 ^ 64) {r : Request}
    (hi : c.setOf r.address = i) (hread : r.isWrite = false)
    (hhit : c.contains r.address = true)
    (hlatest : c.restamps r = true → c.Latest s r.address) :
    ∃ s', s'.clock.toNat = s.clock.toNat + 1 ∧ (c.access r).cache.InStep i s' d j t := by
  have hsound := h.alike.sound_left
  obtain ⟨s', hs', htimed, hpolicy, hstamp⟩ := h.timed_left.access hsound hclock r
  refine ⟨s', hs', ?_, hpolicy.trans h.policy_eq, htimed, h.timed_right, ?_⟩
  · exact
      { sound_left := hsound.access r
        sound_right := h.alike.sound_right
        set_lt_left := by rw [geometry_access]; exact h.alike.set_lt_left
        set_lt_right := h.alike.set_lt_right
        ways_eq := by rw [geometry_access, h.alike.ways_eq]
        lineBytes_eq := by rw [geometry_access, h.alike.lineBytes_eq]
        line_eq := by
          rw [geometry_access, store_access_of_read_hit hread hhit]
          exact h.alike.line_eq }
  · rw [geometry_access]
    intro way hway way' hway'
    rw [← h.order_iff way hway way' hway', hstamp way hway, hstamp way' hway']
    by_cases hmarked : c.restamps r = true
    · -- The way that is stamped was the latest already, and it still is.
      obtain ⟨last, hfind, hlast⟩ := hlatest hmarked
      have hmarks : ∀ way, c.Marks r i way ↔ way = last := by
        intro way
        rw [Marks, outcome_eq_hit_iff.mpr hfind]
        simp [hmarked, hi, Outcome.way]
      rw [hi] at hlast
      have hle := h.timed_left.stamp_le way hway
      have hle' := h.timed_left.stamp_le way' hway'
      simp only [hmarks]
      by_cases heq : way = last <;> by_cases heq' : way' = last
      · simp [heq, heq']
      · have hlt := hlast way' hway' heq'
        rw [if_pos heq, if_neg heq', heq]
        omega
      · have hlt := hlast way hway heq
        rw [if_neg heq, if_pos heq', heq']
        omega
      · rw [if_neg heq, if_neg heq']
    · have hmarks : ∀ way, ¬ c.Marks r i way := fun way hmark => hmarked hmark.1
      rw [if_neg (hmarks way), if_neg (hmarks way')]

/-- Under random replacement a read that hits leaves all as it is but the counters. -/
theorem sameState_access_of_read_hit {c : Cache} (hrandom : c.replacement.policy = .random)
    {r : Request} (hread : r.isWrite = false) (hhit : c.contains r.address = true) :
    (c.access r).cache.SameState c where
  name_eq := name_access c r
  geometry_eq := geometry_access c r
  store_eq := store_access_of_read_hit hread hhit
  replacement_eq := by
    obtain ⟨way, hfind⟩ := Option.isSome_iff_exists.mp hhit
    rw [replacement_access, hfind]
    cases hr : c.replacement <;> rw [hr] at hrandom <;> first | rfl | cases hrandom

section

variable {c : Cache} (h : c.Built)
include h

/-- A request that is redundant hits, and if it is stamped, then its line is the latest already. -/
theorem Built.of_redundant {past : List Request} (hcount : past.length < 2 ^ 64) {r : Request}
    (hredundant : c.Redundant past r) :
    (c.after past).contains r.address = true ∧
      ∀ s, (c.after past).replacement.stamps? = some s → (c.after past).restamps r = true →
        (c.after past).Latest s r.address := by
  rw [Redundant] at hredundant
  rw [restamps, h.policy_after]
  cases hpolicy : c.geometry.policy with
  | lru =>
    rw [hpolicy] at hredundant
    obtain ⟨q, hlast, htag⟩ := hredundant
    obtain ⟨s, -, htimed, hlatest⟩ := h.exists_latest hpolicy (c.setOf r.address) hcount
    have hr := (hlatest q hlast).of_tagOf_eq (by simpa using htag)
    refine ⟨Option.isSome_iff_exists.mpr (hr.imp fun _ hway => hway.1), fun s' hs' _ => ?_⟩
    obtain rfl : s = s' := Option.some.inj (htimed.stamps?_eq.symm.trans hs')
    exact hr
  | fifo =>
    rw [hpolicy, isHit_outcome] at hredundant
    exact ⟨hredundant, fun _ _ hstamped => by simp [hredundant] at hstamped⟩
  | random =>
    rw [hpolicy, isHit_outcome] at hredundant
    exact ⟨hredundant, fun _ _ hstamped => by simp [hredundant] at hstamped⟩

/-! ## Runs from which reads are dropped -/

/-- Under an ordered policy each set goes through the whole run in step with the same set of the
cache that serves what is left of it. -/
theorem Built.exists_inStep_thinned (hstamped : c.geometry.policy.isStamped = true) {set : ℕ}
    (hset : set < c.geometry.sets) {run : List (Request × Bool)} (hthins : c.Thins run)
    (hreads : DropsReads run) (hcount : run.length < 2 ^ 64) :
    ∃ s t, s.clock.toNat = run.length ∧ t.clock.toNat = (keptRun run).length ∧
      (c.after (wholeRun run)).InStep set s (c.after (keptRun run)) set t := by
  induction run using List.reverseRecOn with
  | nil =>
    have hslice := h.timed hstamped set
    refine ⟨_, _, rfl, rfl, ⟨h.sound, h.sound, hset, hset, rfl, rfl, fun _ _ => rfl⟩, rfl, hslice,
      hslice, fun _ _ _ _ => Iff.rfl⟩
  | append_singleton run mark ih =>
    obtain ⟨r, stays⟩ := mark
    rw [List.length_append, List.length_singleton] at hcount
    obtain ⟨s, t, hs, ht, hstep⟩ := ih hthins.of_append hreads.of_append (by omega)
    have hle := length_keptRun_le run
    rw [wholeRun_concat, after_append, after_cons, after_nil, List.length_append,
      List.length_singleton]
    cases stays with
    | true =>
      rw [keptRun_concat_true, after_append, after_cons, after_nil, List.length_append,
        List.length_singleton]
      by_cases hhome : c.setOf r.address = set
      · obtain ⟨s', t', hs', ht', hnext⟩ := hstep.access (by omega) (by omega)
          (by rwa [setOf_after]) (by rwa [setOf_after])
        exact ⟨s', t', by omega, by omega, hnext⟩
      · obtain ⟨s', hs', hleft⟩ := hstep.access_left (by omega) (by rwa [setOf_after])
        obtain ⟨t', ht', hnext⟩ := hleft.symm.access_left (by omega) (by rwa [setOf_after])
        exact ⟨s', t', by omega, by omega, hnext.symm⟩
    | false =>
      rw [keptRun_concat_false]
      have hread := hreads r (by simp)
      obtain ⟨hhit, hlatest⟩ := h.of_redundant (by rw [length_wholeRun]; omega) hthins.redundant
      by_cases hhome : c.setOf r.address = set
      · obtain ⟨s', hs', hnext⟩ := hstep.access_left_of_latest (by omega) (by rwa [setOf_after])
          hread hhit (hlatest s hstep.timed_left.stamps?_eq)
        exact ⟨s', t, by omega, ht, hnext⟩
      · obtain ⟨s', hs', hnext⟩ := hstep.access_left (by omega) (by rwa [setOf_after])
        exact ⟨s', t, by omega, ht, hnext⟩

/-- Under random replacement the cache ends up the same, the counters apart. -/
theorem Built.sameState_thinned (hrandom : c.geometry.policy = .random)
    {run : List (Request × Bool)} (hthins : c.Thins run) (hreads : DropsReads run)
    (hcount : run.length < 2 ^ 64) :
    (c.after (wholeRun run)).SameState (c.after (keptRun run)) := by
  induction run using List.reverseRecOn with
  | nil => exact sameState_refl c
  | append_singleton run mark ih =>
    obtain ⟨r, stays⟩ := mark
    rw [List.length_append, List.length_singleton] at hcount
    have hsame := ih hthins.of_append hreads.of_append (by omega)
    rw [wholeRun_concat, after_append, after_cons, after_nil]
    cases stays with
    | true =>
      rw [keptRun_concat_true, after_append, after_cons, after_nil]
      exact hsame.access rfl rfl
    | false =>
      rw [keptRun_concat_false]
      have hread := hreads r (by simp)
      obtain ⟨hhit, -⟩ := h.of_redundant (by rw [length_wholeRun]; omega) hthins.redundant
      exact (sameState_access_of_read_hit (by rw [h.policy_after, hrandom]) hread hhit).trans hsame

/-- Whatever the policy, the whole run and what is left of it lead to caches that agree. -/
theorem Built.agree_thinned {run : List (Request × Bool)} (hthins : c.Thins run)
    (hreads : DropsReads run) (hcount : run.length < 2 ^ 64) :
    (c.after (wholeRun run)).Agree (c.after (keptRun run)) := by
  have hgeometry : (c.after (wholeRun run)).geometry = (c.after (keptRun run)).geometry := by
    rw [geometry_after, geometry_after]
  by_cases hstamped : c.geometry.policy.isStamped = true
  · have hstep := fun {set} (hset : set < c.geometry.sets) =>
      h.exists_inStep_thinned hstamped hset hthins hreads hcount
    refine ⟨h.sound.after _, hgeometry, fun {set} hset => ?_, fun a => ?_⟩
    · rw [geometry_after] at hset
      obtain ⟨s, t, -, -, hnext⟩ := hstep hset
      exact hnext.alike
    · obtain ⟨s, t, -, -, hnext⟩ := hstep (h.sound.setOf_lt a)
      exact hnext.wayFor_eq (setOf_after c _ a) (setOf_after c _ a)
  · have hrandom : c.geometry.policy = .random := by
      cases hpolicy : c.geometry.policy <;> rw [hpolicy] at hstamped <;>
        first | rfl | exact absurd rfl hstamped
    have hsame := h.sameState_thinned hrandom hthins hreads hcount
    refine ⟨h.sound.after _, hgeometry, fun {set} hset => ?_, hsame.wayFor_eq⟩
    exact ⟨h.sound.after _, h.sound.after _, hset, hgeometry ▸ hset,
      congrArg Geometry.ways hgeometry, congrArg Geometry.lineBytes hgeometry,
      fun way _ => by rw [hsame.store_eq]⟩

/-- Both send as many lines back. -/
theorem Built.writebacks_thinned {run : List (Request × Bool)} (hthins : c.Thins run)
    (hreads : DropsReads run) (hcount : run.length < 2 ^ 64) :
    (c.after (wholeRun run)).counters.writebacks = (c.after (keptRun run)).counters.writebacks := by
  induction run using List.reverseRecOn with
  | nil => rfl
  | append_singleton run mark ih =>
    obtain ⟨r, stays⟩ := mark
    rw [List.length_append, List.length_singleton] at hcount
    have hsame := ih hthins.of_append hreads.of_append (by omega)
    have hwhole := toNat_get_access (c.after (wholeRun run)) r .writebacks
    rw [Counters.get, Counters.get, hsame] at hwhole
    rw [wholeRun_concat, after_append, after_cons, after_nil, ← UInt64.toNat_inj, hwhole]
    cases stays with
    | true =>
      have hagree := h.agree_thinned hthins.of_append hreads.of_append (by omega)
      rw [keptRun_concat_true, after_append, after_cons, after_nil, hagree.charge_eq]
      exact (toNat_get_access (c.after (keptRun run)) r .writebacks).symm
    | false =>
      obtain ⟨hhit, -⟩ := h.of_redundant (by rw [length_wholeRun]; omega) hthins.redundant
      rw [keptRun_concat_false, charge, writesBack, hhit]
      exact Nat.mod_eq_of_lt (UInt64.toNat_lt _)

end

/-! ## Runs from which writes are dropped, too -/

/-- The run as one that only reads. -/
def readingRun (run : List (Request × Bool)) : List (Request × Bool) :=
  run.map (Prod.map Request.reading id)

theorem wholeRun_readingRun (run : List (Request × Bool)) :
    wholeRun (readingRun run) = (wholeRun run).map Request.reading := by
  simp [wholeRun, readingRun]

theorem keptRun_readingRun (run : List (Request × Bool)) :
    keptRun (readingRun run) = (keptRun run).map Request.reading := by
  simp [keptRun, readingRun, List.filter_map, Function.comp_def]

theorem dropsReads_readingRun (run : List (Request × Bool)) : DropsReads (readingRun run) := by
  intro r hr
  obtain ⟨mark, -, heq⟩ := List.mem_map.mp hr
  obtain ⟨rfl, -⟩ := Prod.mk.inj heq
  rfl

/-- A run holds the same lines as the run that reads where it writes. -/
theorem Sound.sameLines_reading {c : Cache} (h : c.Sound) (rs : List Request) :
    (c.after rs).SameLines (c.after (rs.map Request.reading)) :=
  h.sameLines.after (List.forall₂_map_right_iff.mpr (List.forall₂_same.mpr fun _ _ => rfl))

theorem requestsTo_map_reading (c : Cache) (set : ℕ) (rs : List Request) :
    c.requestsTo set (rs.map Request.reading) = (c.requestsTo set rs).map Request.reading := by
  rw [requestsTo, List.filter_map]
  rfl

/-- What is redundant stays so if all is read. -/
theorem Redundant.reading {c : Cache} (h : c.Sound) {past : List Request} {r : Request}
    (hredundant : c.Redundant past r) :
    c.Redundant (past.map Request.reading) r.reading := by
  have hhit : ((c.after past).access r).outcome.isHit =
      ((c.after (past.map Request.reading)).access r.reading).outcome.isHit :=
    (h.sameLines_reading past).isHit_eq rfl
  rw [Redundant] at hredundant ⊢
  cases hpolicy : c.geometry.policy with
  | lru =>
    rw [hpolicy] at hredundant
    obtain ⟨q, hlast, htag⟩ := hredundant
    refine ⟨q.reading, ?_, htag⟩
    rw [requestsTo_map_reading, List.getLast?_map, show c.setOf r.reading.address =
      c.setOf r.address from rfl, hlast, Option.map_some]
  | fifo =>
    rw [hpolicy] at hredundant
    exact hhit ▸ hredundant
  | random =>
    rw [hpolicy] at hredundant
    exact hhit ▸ hredundant

theorem Thins.reading {c : Cache} (h : c.Sound) {run : List (Request × Bool)}
    (hthins : c.Thins run) : c.Thins (readingRun run) := by
  intro past r later hsplit
  obtain ⟨before, rest, rfl, rfl, hrest⟩ := List.map_eq_append_iff.mp hsplit
  obtain ⟨⟨q, stays⟩, after, rfl, hmark, -⟩ := List.map_eq_cons_iff.mp hrest
  obtain ⟨rfl, rfl⟩ := Prod.mk.inj hmark
  rw [← readingRun, wholeRun_readingRun]
  exact (hthins before q after rfl).reading h

/-- The whole run and what is left of it lead to caches that agree if both only read. -/
theorem Built.agree_reading {c : Cache} (h : c.Built) {run : List (Request × Bool)}
    (hthins : c.Thins run) (hcount : run.length < 2 ^ 64) :
    (c.after ((wholeRun run).map Request.reading)).Agree
      (c.after ((keptRun run).map Request.reading)) := by
  rw [← wholeRun_readingRun, ← keptRun_readingRun]
  exact h.agree_thinned (hthins.reading h.sound) (dropsReads_readingRun run)
    (by rwa [readingRun, List.length_map])

/-- **Redundant requests can be dropped.**  Let a new cache of any shape serve a run that its clock
can count, and let any requests be dropped from the run that are redundant where they stand: under
FIFO and random replacement any that hit, and under LRU any whose line was the one asked for last in
its set.  Then at every moment the cache holds the same lines, and all requests that are left hit
or miss as before and at the same ways.

If all requests that are dropped are reads, then the dirty bits and the number of writebacks are
the same at every moment, too, and all requests that are left replace the same lines and cause the
same, so that the same requests are sent down. -/
theorem redundant_requests_can_be_dropped {c : Cache} (hbuilt : c.Built)
    {run : List (Request × Bool)} (hthins : c.Thins run) (hcount : run.length < 2 ^ 64) :
    (∀ past later, run = past ++ later →
      (c.after (wholeRun past)).residentLines = (c.after (keptRun past)).residentLines ∧
        ∀ a, (c.after (wholeRun past)).contains a = (c.after (keptRun past)).contains a) ∧
    (∀ past r later, run = past ++ (r, true) :: later →
      let whole := (c.after (wholeRun past)).access r
      let kept := (c.after (keptRun past)).access r
      whole.outcome.isHit = kept.outcome.isHit ∧ whole.outcome.way = kept.outcome.way) ∧
    (DropsReads run →
      (∀ past later, run = past ++ later →
        (c.after (wholeRun past)).counters.writebacks =
          (c.after (keptRun past)).counters.writebacks ∧
        ∀ a, (c.after (wholeRun past)).isDirty a = (c.after (keptRun past)).isDirty a) ∧
      ∀ past r later, run = past ++ (r, true) :: later →
        let whole := (c.after (wholeRun past)).access r
        let kept := (c.after (keptRun past)).access r
        whole.outcome = kept.outcome ∧ whole.effects = kept.effects) := by
  have hwhole := fun past => hbuilt.sound.sameLines_reading (wholeRun past)
  have hkept := fun past => (hbuilt.sound.sameLines_reading (keptRun past)).symm
  refine ⟨?_, ?_, fun hreads => ⟨?_, ?_⟩⟩
  · rintro past later rfl
    rw [List.length_append] at hcount
    have hagree := hbuilt.agree_reading hthins.of_append (by omega)
    refine ⟨?_, fun a => ?_⟩
    · rw [(hwhole past).residentLines_eq, hagree.residentLines_eq, (hkept past).residentLines_eq]
    · rw [(hwhole past).contains_eq, hagree.contains_eq, (hkept past).contains_eq]
  · rintro past r later rfl
    rw [List.length_append] at hcount
    have hagree := hbuilt.agree_reading hthins.of_append (by omega)
    have houtcome := hagree.outcome_eq r
    intro whole kept
    refine ⟨?_, ?_⟩
    · calc whole.outcome.isHit
          = _ := (hwhole past).isHit_eq rfl
        _ = _ := congrArg Outcome.isHit houtcome
        _ = kept.outcome.isHit := (hkept past).isHit_eq rfl
    · calc whole.outcome.way
          = _ := (hwhole past).way_eq rfl
        _ = _ := congrArg Outcome.way houtcome
        _ = kept.outcome.way := (hkept past).way_eq rfl
  · rintro past later rfl
    rw [List.length_append] at hcount
    exact ⟨hbuilt.writebacks_thinned hthins.of_append hreads.of_append (by omega),
      (hbuilt.agree_thinned hthins.of_append hreads.of_append (by omega)).isDirty_eq⟩
  · rintro past r later rfl
    rw [List.length_append] at hcount
    have hagree := hbuilt.agree_thinned hthins.of_append hreads.of_append (by omega)
    exact ⟨hagree.outcome_eq r, hagree.effects_eq (by simp) (by simp) r⟩

/-- Two sets of two ways: the line that is read twice in a row would be read once, and still the
third line of the set replaces the other one, which is dirty. -/
theorem redundant_requests_can_be_dropped_two_sets :
    let c := fresh .array ⟨2, 2, 8, .lru⟩ "L1$" default
    let past : List (Request × Bool) :=
      [(⟨16, 8, true⟩, true), (⟨0, 8, true⟩, true), (⟨8, 8, false⟩, true), (⟨4, 4, false⟩, false)]
    let r : Request := ⟨32, 8, false⟩
    let run := past ++ [(r, true)]
    let kept := c.after [⟨16, 8, true⟩, ⟨0, 8, true⟩, ⟨8, 8, false⟩]
    c.Built ∧ c.Thins run ∧ run.length < 2 ^ 64 ∧ DropsReads run ∧
      ((c.after (wholeRun past)).access r).outcome = (kept.access r).outcome ∧
      ((c.after (wholeRun past)).access r).effects = (kept.access r).effects ∧
      ((c.after (wholeRun past)).access r).outcome = .miss 0 ⟨2, true, true⟩ ∧
      (c.after (wholeRun run)).residentLines = (kept.access r).cache.residentLines := by
  intro c past r run kept
  have hbuilt : c.Built := .setAssociative (g := ⟨2, 2, 8, .lru⟩) rfl
  have hthins : c.Thins run := by
    intro before q later hsplit
    -- Only the fourth request is dropped.
    match before with
    | [] | [_] | [_, _] | [_, _, _, _] | _ :: _ :: _ :: _ :: _ :: _ => simp [run, past] at hsplit
    | [_, _, _] =>
      obtain ⟨rfl, rfl, rfl, rfl, -⟩ : _ = _ ∧ _ = _ ∧ _ = _ ∧ _ = q ∧ _ := by
        simpa [run, past] using hsplit
      exact ⟨⟨0, 8, true⟩, by decide, by decide⟩
  have hreads : DropsReads run := by
    intro q hq
    obtain rfl : q = ⟨4, 4, false⟩ := by simpa [run, past] using hq
    rfl
  have hcount : run.length < 2 ^ 64 := by decide
  obtain ⟨hlines, -, hrest⟩ := redundant_requests_can_be_dropped hbuilt hthins hcount
  obtain ⟨houtcome, heffects⟩ := (hrest hreads).2 past r [] rfl
  exact ⟨hbuilt, hthins, hcount, hreads, houtcome, heffects, by decide,
    (hlines run [] (List.append_nil _).symm).1⟩

end Cache

end CacheModel

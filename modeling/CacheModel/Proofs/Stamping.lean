import Mathlib
import CacheModel.Proofs.Soundness

/-!
# What stamps tell

A cache calls upon its replacement state in four ways: time goes on, a way is touched, a line is
installed at a way, and a way to replace is asked for.  Under an ordered policy some of these calls
mark a way.  The stamp of a way is the time of the call that marked it last, so that the way with
the least stamp is the one that was marked longest ago.

Two ways that were marked at the same time could not be told apart.  But a cache lets time go on
before every request, and a request marks at most one way: the one that its line is found at
afterwards, and always so if the line has just come in.  So the lines that are held carry different
stamps, in all sets together, and no tie decides which of them has to leave.
-/

namespace CacheModel

namespace Replacement

/-! ## Calls -/

/-- What a cache calls upon its replacement state to do. -/
inductive Call where
  | tick
  | touch (set way : ℕ)
  | install (set way : ℕ)
  | victim (set : ℕ) (lines : List Line)
  deriving DecidableEq

namespace Call

/-- The call concerns a way that is there, or the ways of a set that is there. -/
def InRange (sets ways : ℕ) : Call → Prop
  | tick => True
  | touch set way => set < sets ∧ way < ways
  | install set way => set < sets ∧ way < ways
  | victim set lines => set < sets ∧ lines.length ≤ ways

instance (sets ways : ℕ) : (call : Call) → Decidable (call.InRange sets ways)
  | tick => inferInstanceAs (Decidable True)
  | touch _ _ => inferInstanceAs (Decidable (_ ∧ _))
  | install _ _ => inferInstanceAs (Decidable (_ ∧ _))
  | victim _ _ => inferInstanceAs (Decidable (_ ∧ _))

/-- The call stamps this way of this set: an installation does, and under LRU a touch does too. -/
def Marks (policy : Policy) (set way : ℕ) (call : Call) : Prop :=
  call = install set way ∨ policy = .lru ∧ call = touch set way

instance (policy : Policy) (set way : ℕ) (call : Call) : Decidable (call.Marks policy set way) :=
  inferInstanceAs (Decidable (_ ∨ _))

end Call

/-- The state after a call. -/
def perform (r : Replacement) : Call → Replacement
  | .tick => r.tick
  | .touch set way => r.touch set way
  | .install set way => r.install set way
  | .victim set lines => (r.victim set lines).2

/-- The state after several calls in order. -/
def after (r : Replacement) (calls : List Call) : Replacement :=
  calls.foldl perform r

theorem after_concat (r : Replacement) (calls : List Call) (call : Call) :
    r.after (calls ++ [call]) = (r.after calls).perform call := by
  simp [after]

@[simp] theorem policy_perform (r : Replacement) (call : Call) :
    (r.perform call).policy = r.policy := by
  cases call <;> simp [perform]

@[simp] theorem policy_after (r : Replacement) (calls : List Call) :
    (r.after calls).policy = r.policy := by
  induction calls using List.reverseRecOn with
  | nil => rfl
  | append_singleton calls call ih => rw [after_concat, policy_perform, ih]

/-- A call lets time go on or gives the present time to the way that it marks, and changes nothing
else. -/
theorem exists_stamps?_perform {r : Replacement} {s : Stamps} {sets ways : ℕ}
    (h : r.stamps? = some s) (hfits : s.Fits sets ways) {call : Call}
    (hrange : call.InRange sets ways) :
    ∃ s', (r.perform call).stamps? = some s' ∧ s'.Fits sets ways ∧
      s'.clock = (if call = .tick then s.clock + 1 else s.clock) ∧
      ∀ {set way}, way < ways → s'.stamp set way =
        if call.Marks r.policy set way then s.clock else s.stamp set way := by
  cases call with
  | tick =>
    refine ⟨s.tick, stamps?_tick h, hfits.tick, rfl, fun _ => ?_⟩
    simp [Call.Marks]
  | touch set way =>
    by_cases hlru : r.policy = .lru
    · refine ⟨s.mark set way, (stamps?_touch h set way).trans (by rw [if_pos hlru]),
        hfits.mark set way, rfl, fun hway' => ?_⟩
      rw [hfits.stamp_mark hrange.1 hrange.2 hway']
      simp [Call.Marks, hlru, eq_comm]
    · refine ⟨s, (stamps?_touch h set way).trans (by rw [if_neg hlru]), hfits, rfl, fun _ => ?_⟩
      simp [Call.Marks, hlru]
  | install set way =>
    refine ⟨s.mark set way, stamps?_install h set way, hfits.mark set way, rfl, fun hway' => ?_⟩
    rw [hfits.stamp_mark hrange.1 hrange.2 hway']
    simp [Call.Marks, eq_comm]
  | victim set lines =>
    refine ⟨s, ?_, hfits, rfl, fun _ => ?_⟩
    · rw [perform, victim_of_stamps? h, h]
    · simp [Call.Marks]

/-! ## Stamps and the calls before them -/

/-- The clock counts the ticks, and the stamp of a way is the number of ticks before the call that
marked it last. -/
structure Records (policy : Policy) (sets ways : ℕ) (calls : List Call) (s : Stamps) : Prop where
  fits : s.Fits sets ways
  clock_eq : s.clock.toNat = calls.count .tick
  unmarked : ∀ {set way}, way < ways → (∀ call ∈ calls, ¬ call.Marks policy set way) →
    s.stamp set way = 0
  marked : ∀ {set way before call later}, way < ways → calls = before ++ call :: later →
    call.Marks policy set way → (∀ call ∈ later, ¬ call.Marks policy set way) →
    (s.stamp set way).toNat = before.count .tick

theorem records_fresh (policy : Policy) (sets ways : ℕ) :
    Records policy sets ways [] (.fresh sets ways) where
  fits := Stamps.fits_fresh sets ways
  clock_eq := rfl
  unmarked _ _ := Stamps.stamp_fresh sets ways _ _
  marked _ hsplit := by simp at hsplit

/-- A call is added to the record. -/
theorem Records.concat {policy : Policy} {sets ways : ℕ} {calls : List Call} {s s' : Stamps}
    (h : Records policy sets ways calls s) {call : Call}
    (hcount : (calls ++ [call]).count .tick < 2 ^ 64) (hfits : s'.Fits sets ways)
    (hclock : s'.clock = (if call = .tick then s.clock + 1 else s.clock))
    (hstamp : ∀ {set way}, way < ways → s'.stamp set way =
      if call.Marks policy set way then s.clock else s.stamp set way) :
    Records policy sets ways (calls ++ [call]) s' where
  fits := hfits
  clock_eq := by
    rw [List.count_append] at hcount ⊢
    rw [hclock]
    by_cases htick : call = .tick
    · subst htick
      rw [List.count_singleton_self] at hcount ⊢
      rw [if_pos rfl, UInt64.toNat_add, h.clock_eq]
      exact Nat.mod_eq_of_lt hcount
    · rw [if_neg htick, h.clock_eq, List.count_singleton, if_neg (by simpa using htick)]
      rfl
  unmarked hway hnone := by
    rw [hstamp hway, if_neg (hnone call (by simp))]
    exact h.unmarked hway fun earlier hmem => hnone earlier (List.mem_append_left _ hmem)
  marked {set way before marker later} hway hsplit hmarks hnone := by
    rw [hstamp hway]
    rcases later.eq_nil_or_concat' with rfl | ⟨later, last, rfl⟩
    · obtain ⟨rfl, hlast⟩ := List.append_inj' hsplit rfl
      obtain rfl := List.singleton_inj.mp hlast
      rw [if_pos hmarks, h.clock_eq]
    · rw [← List.cons_append, ← List.append_assoc] at hsplit
      obtain ⟨hbefore, hlast⟩ := List.append_inj' hsplit rfl
      obtain rfl := List.singleton_inj.mp hlast
      rw [if_neg (hnone call (by simp))]
      exact h.marked hway hbefore hmarks fun other hmem =>
        hnone other (List.mem_append_left _ hmem)

/-- Calls in range are recorded as long as the clock can count them. -/
theorem exists_records_after {policy : Policy} (hstamped : policy.isStamped = true)
    {sets ways : ℕ} (source : Source) {calls : List Call}
    (hrange : ∀ call ∈ calls, call.InRange sets ways) (hcount : calls.count .tick < 2 ^ 64) :
    ∃ s, ((fresh policy sets ways source).after calls).stamps? = some s ∧
      Records policy sets ways calls s := by
  induction calls using List.reverseRecOn with
  | nil => exact ⟨_, stamps?_fresh hstamped sets ways source, records_fresh policy sets ways⟩
  | append_singleton calls call ih =>
    have hbefore : calls.count .tick ≤ (calls ++ [call]).count .tick :=
      (List.sublist_append_left calls [call]).count_le _
    obtain ⟨s, hstamps, hrecords⟩ :=
      ih (fun earlier hmem => hrange earlier (List.mem_append_left _ hmem)) (by omega)
    obtain ⟨s', hstamps', hfits, hclock, hstamp⟩ :=
      exists_stamps?_perform hstamps hrecords.fits (hrange call (by simp))
    rw [policy_after, policy_fresh] at hstamp
    refine ⟨s', ?_, hrecords.concat hcount hfits hclock hstamp⟩
    rw [after_concat, hstamps']

end Replacement

namespace Cache

/-! ## Stamps of the lines that are held -/

/-- Every line that is held was stamped, not later than now, and no two of them at one time. -/
structure Untied (c : Cache) (s : Stamps) : Prop where
  stamps?_eq : c.replacement.stamps? = some s
  stamp_pos : ∀ {set way}, set < c.geometry.sets → way < c.geometry.ways →
    (c.store.line set way).valid = true → 1 ≤ (s.stamp set way).toNat
  stamp_le : ∀ {set way}, set < c.geometry.sets → way < c.geometry.ways →
    (c.store.line set way).valid = true → (s.stamp set way).toNat ≤ s.clock.toNat
  stamp_inj : ∀ {set way set' way'}, set < c.geometry.sets → way < c.geometry.ways →
    set' < c.geometry.sets → way' < c.geometry.ways → (c.store.line set way).valid = true →
    (c.store.line set' way').valid = true → s.stamp set way = s.stamp set' way' →
    set = set' ∧ way = way'

theorem Built.untied {c : Cache} (h : c.Built) (hstamped : c.geometry.policy.isStamped = true) :
    c.Untied (.fresh c.geometry.sets c.geometry.ways) := by
  have hempty : ∀ {set way}, (c.store.line set way).valid = false := by
    intro set way
    rw [h.line_eq]
    rfl
  refine ⟨h.stamps?_eq hstamped, ?_, ?_, ?_⟩
  all_goals simp [hempty]

section

variable {c : Cache} (h : c.Sound) {s : Stamps} (huntied : c.Untied s)
include h

/-- A line that a request brings in is stamped by it. -/
theorem Sound.valid_of_not_marks {r : Request} {set way : ℕ} (hset : set < c.geometry.sets)
    (hway : way < c.geometry.ways) (hmark : ¬ c.Marks r set way)
    (hvalid : ((c.access r).cache.store.line set way).valid = true) :
    (c.store.line set way).valid = true := by
  rw [h.line_access r hset hway] at hvalid
  split at hvalid
  · next hplace =>
    have hfound : c.contains r.address = true := by
      by_contra hmiss
      exact hmark ⟨by simp [restamps, hmiss], hplace⟩
    obtain ⟨found, hfind⟩ := Option.isSome_iff_exists.mp hfound
    rw [outcome_eq_hit_iff.mpr hfind] at hplace
    obtain ⟨rfl, rfl⟩ := hplace
    exact (Line.holds_iff.mp (h.find_iff.mp hfind).2).1
  · exact hvalid

include huntied

/-- A request stamps one way at most, at a time that no stamp had before. -/
theorem Untied.access (hclock : s.clock.toNat + 1 < 2 ^ 64) (r : Request) :
    ∃ s', s'.clock.toNat = s.clock.toNat + 1 ∧ (c.access r).cache.Untied s' := by
  obtain ⟨s', -, hafter, hclock', hstamp⟩ :=
    h.exists_stamps?_access huntied.stamps?_eq hclock r
  refine ⟨s', hclock', hafter, ?_, ?_, ?_⟩
  all_goals simp only [geometry_access]
  · intro set way hset hway hvalid
    rw [hstamp hway]
    split
    · omega
    · next hmark => exact huntied.stamp_pos hset hway (h.valid_of_not_marks hset hway hmark hvalid)
  · intro set way hset hway hvalid
    rw [hstamp hway]
    split
    · exact le_rfl
    · next hmark =>
      have hle := huntied.stamp_le hset hway (h.valid_of_not_marks hset hway hmark hvalid)
      omega
  · intro set way set' way' hset hway hset' hway' hvalid hvalid' heq
    have hold := fun hmark => h.valid_of_not_marks hset hway hmark hvalid
    have hold' := fun hmark => h.valid_of_not_marks hset' hway' hmark hvalid'
    rw [hstamp hway, hstamp hway'] at heq
    by_cases hmark : c.Marks r set way <;> by_cases hmark' : c.Marks r set' way'
    · exact ⟨hmark.2.1.trans hmark'.2.1.symm, hmark.2.2.trans hmark'.2.2.symm⟩
    · -- A stamp that is new is ahead of all others.
      have hle := huntied.stamp_le hset' hway' (hold' hmark')
      rw [if_pos hmark, if_neg hmark'] at heq
      rw [← heq] at hle
      omega
    · have hle := huntied.stamp_le hset hway (hold hmark)
      rw [if_neg hmark, if_pos hmark'] at heq
      rw [heq] at hle
      omega
    · rw [if_neg hmark, if_neg hmark'] at heq
      exact huntied.stamp_inj hset hway hset' hway' (hold hmark) (hold' hmark') heq

/-- A line that has to leave was stamped before all others of its set. -/
theorem Untied.stamp_wayFor_lt {a : UInt64} (hvalid : (c.lineFor a).valid = true) {way : ℕ}
    (hway : way < c.geometry.ways) (hne : way ≠ c.wayFor a) :
    s.stamp (c.setOf a) (c.wayFor a) < s.stamp (c.setOf a) way := by
  have hset := h.setOf_lt a
  obtain ⟨hempty, hleast⟩ := h.lineFor_of_stamps huntied.stamps?_eq a
  have hfull := hempty.resolve_left (by simp [hvalid])
  rw [UInt64.lt_iff_toNat_lt]
  refine lt_of_le_of_ne (hleast hvalid way hway) fun heq => hne ?_
  exact (huntied.stamp_inj hset hway hset (h.offers_wayFor a).lt (hfull way hway) hvalid
    (UInt64.toNat_inj.mp heq.symm)).2

end

/-- A new cache under an ordered policy has no ties in every run that its clock can count. -/
theorem Built.exists_untied_after {c : Cache} (h : c.Built)
    (hstamped : c.geometry.policy.isStamped = true) (rs : List Request)
    (hcount : rs.length < 2 ^ 64) :
    ∃ s, s.clock.toNat = rs.length ∧ (c.after rs).Untied s := by
  induction rs using List.reverseRecOn with
  | nil => exact ⟨_, rfl, h.untied hstamped⟩
  | append_singleton rs r ih =>
    rw [List.length_append, List.length_singleton] at hcount ⊢
    obtain ⟨s, hclock, huntied⟩ := ih (by omega)
    obtain ⟨s', hclock', huntied'⟩ := huntied.access (h.sound.after rs) (by omega) r
    refine ⟨s', by omega, ?_⟩
    rw [after_append]
    exact huntied'

/-- **Stamps order the ways without ties.**  Let a new replacement state with an ordered policy be
called in any order, as long as the clock can count.  The stamp of a way is the number of ticks
before the last call that marked this very way, and zero if there was none.  Asked for a victim, the
state chooses the first place without a line if there is one, and otherwise the first of the ways
that were stamped earliest.  Let a new cache serve any run that its clock can count.  The stamps of
the lines that it holds, in all sets together, are different numbers from one to the clock, so that
the line that a missing one replaces was stamped before all others of its set. -/
theorem stamps_order_ways :
    (∀ {policy : Policy} {sets ways : ℕ} {calls : List Replacement.Call} (source : Source),
      policy.isStamped = true → (∀ call ∈ calls, call.InRange sets ways) →
      calls.length < 2 ^ 64 →
      let now := (Replacement.fresh policy sets ways source).after calls
      ∃ s, now.stamps? = some s ∧ s.clock.toNat = calls.count .tick ∧
        (∀ set < sets, ∀ way < ways,
          ((∀ call ∈ calls, ¬ call.Marks policy set way) → s.stamp set way = 0) ∧
          ∀ before call later, calls = before ++ call :: later → call.Marks policy set way →
            (∀ other ∈ later, ¬ other.Marks policy set way) →
            (s.stamp set way).toNat = before.count .tick) ∧
        ∀ set lines, (Replacement.Call.victim set lines).InRange sets ways →
          ((∃ line ∈ lines, line.valid = false) →
            IsLeast {way | ∃ line, lines[way]? = some line ∧ line.valid = false}
              (now.victim set lines).1) ∧
          ((∀ line ∈ lines, line.valid = true) → lines ≠ [] →
            IsLeast {way | way < lines.length ∧
              ∀ other < lines.length, (s.stamp set way).toNat ≤ (s.stamp set other).toNat}
              (now.victim set lines).1)) ∧
    ∀ {c : Cache} {rs : List Request}, c.Built → c.geometry.policy.isStamped = true →
      rs.length < 2 ^ 64 →
      let now := c.after rs
      let held := fun set way => set < c.geometry.sets ∧ way < c.geometry.ways ∧
        (now.store.line set way).valid = true
      ∃ s, now.replacement.stamps? = some s ∧ s.clock.toNat = rs.length ∧
        (∀ set way, held set way →
          1 ≤ (s.stamp set way).toNat ∧ (s.stamp set way).toNat ≤ s.clock.toNat ∧
          ∀ set' way', held set' way' → s.stamp set way = s.stamp set' way' →
            set = set' ∧ way = way') ∧
        ∀ a, (now.lineFor a).valid = true → ∀ way < c.geometry.ways, way ≠ now.wayFor a →
          s.stamp (c.setOf a) (now.wayFor a) < s.stamp (c.setOf a) way := by
  constructor
  · intro policy sets ways calls source hstamped hrange hcount now
    obtain ⟨s, hstamps, hrecords⟩ := Replacement.exists_records_after hstamped source hrange
      (List.count_le_length.trans_lt hcount)
    refine ⟨s, hstamps, hrecords.clock_eq, fun set _ way hway => ⟨hrecords.unmarked hway, ?_⟩, ?_⟩
    · intro before call later hsplit hmarks hnone
      exact hrecords.marked hway hsplit hmarks hnone
    · intro set lines _
      rw [Replacement.victim_of_stamps? hstamps]
      exact ⟨s.isLeast_victim_of_empty set, fun hfull hne => s.isLeast_victim_of_full set hne hfull⟩
  · intro c rs hbuilt hstamped hcount now held
    have hsound := hbuilt.sound.after rs
    obtain ⟨s, hclock, huntied⟩ := hbuilt.exists_untied_after hstamped rs hcount
    have hgeometry : now.geometry = c.geometry := geometry_after c rs
    refine ⟨s, huntied.stamps?_eq, hclock, ?_, ?_⟩
    · rintro set way ⟨hset, hway, hvalid⟩
      rw [← hgeometry] at hset hway
      refine ⟨huntied.stamp_pos hset hway hvalid, huntied.stamp_le hset hway hvalid, ?_⟩
      rintro set' way' ⟨hset', hway', hvalid'⟩ heq
      rw [← hgeometry] at hset' hway'
      exact huntied.stamp_inj hset hway hset' hway' hvalid hvalid' heq
    · intro a hvalid way hway hne
      rw [← hgeometry] at hway
      have hlt := huntied.stamp_wayFor_lt hsound hvalid hway hne
      rwa [setOf_after] at hlt

/-- Two ways that are filled, the first of which is touched again; and a map whose five places are
full, with a hit that does not delay the line that came in first. -/
theorem stamps_order_ways_touched_again :
    let lines : List Line := [.fresh 1, .fresh 3]
    let calls : List Replacement.Call := [.tick, .install 1 0, .tick, .victim 1 [.fresh 1, .empty],
      .install 1 1, .tick, .touch 1 0, .tick]
    let now := (Replacement.fresh .lru 2 2 default).after calls
    let c := fresh .map ⟨1, 5, 8, .fifo⟩ "L1$" default
    let rs : List Request := [⟨0, 8, true⟩, ⟨8, 8, false⟩, ⟨16, 8, false⟩, ⟨0, 8, false⟩,
      ⟨24, 8, false⟩, ⟨32, 8, true⟩]
    Policy.lru.isStamped = true ∧ (∀ call ∈ calls, call.InRange 2 2) ∧ calls.length < 2 ^ 64 ∧
      (∃ s, now.stamps? = some s ∧ s.stamp 0 1 = 0 ∧ (s.stamp 1 1).toNat = 2 ∧
        (s.stamp 1 0).toNat = 3 ∧ (now.victim 1 lines).1 = 1 ∧
        ∀ other < 2, (s.stamp 1 1).toNat ≤ (s.stamp 1 other).toNat) ∧
      Cache.build ⟨1, 5, 8, .fifo⟩ "L1$" default = .ok c ∧ c.geometry.policy.isStamped = true ∧
      rs.length < 2 ^ 64 ∧
      ∃ s, (c.after rs).replacement.stamps? = some s ∧ s.clock.toNat = 6 ∧
        ∀ way < 5, way ≠ 0 → s.stamp 0 0 < s.stamp 0 way := by
  intro lines calls now c rs
  have hstamped : Policy.lru.isStamped = true := rfl
  have hrange : ∀ call ∈ calls, call.InRange 2 2 := by decide
  have hcalls : calls.length < 2 ^ 64 := by decide
  have hbuild : Cache.build ⟨1, 5, 8, .fifo⟩ "L1$" default = .ok c := rfl
  have hcount : rs.length < 2 ^ 64 := by decide
  have hchosen : (now.victim 1 lines).1 = 1 := by decide
  have hset : c.setOf 40 = 0 := by decide
  have hnext : (c.after rs).wayFor 40 = 0 := by decide
  obtain ⟨hstates, hcaches⟩ := stamps_order_ways
  obtain ⟨s, hstamps, -, hways, hvictims⟩ := hstates default hstamped hrange hcalls
  obtain ⟨s', hstamps', hclock', -, hlast⟩ := hcaches (.standard hbuild) rfl hcount
  have holdest := (hvictims 1 lines (by decide)).2 (by decide) (by decide)
  rw [show (Replacement.victim 1 lines _).1 = 1 from hchosen] at holdest
  have hbefore := hlast 40 (by decide)
  refine ⟨hstamped, hrange, hcalls, ⟨s, hstamps, ?_, ?_, ?_, hchosen, holdest.1.2⟩, hbuild, rfl,
    hcount, s', hstamps', hclock', fun way hway hne => ?_⟩
  · exact (hways 0 (by decide) 1 (by decide)).1 (by decide)
  · exact (hways 1 (by decide) 1 (by decide)).2 (calls.take 4) (.install 1 1) (calls.drop 5) rfl
      (by decide) (by decide)
  · exact (hways 1 (by decide) 0 (by decide)).2 (calls.take 6) (.touch 1 0) (calls.drop 7) rfl
      (by decide) (by decide)
  · rw [hset, hnext] at hbefore
    exact hbefore way hway hne

end Cache

end CacheModel

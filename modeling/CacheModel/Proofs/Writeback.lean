import Mathlib
import CacheModel.Proofs.Account

/-!
# Dirty lines and writebacks

A write to a line is *pending* at a level as long as the level has not sent the line back since.
The account of the level shows which writes are pending, and the dirty bits show it too: a line is
dirty exactly if a write to it is pending.  This holds for every policy, every kind of store and
every sequence of draws, because it follows from the law of the dirty bit request by request.

A line is sent back only while a write to it is pending.  Two writebacks of one line therefore
have a write to it between them, and what was never written is never written back.
-/

namespace CacheModel

/-! ## Pending writes -/

namespace Occurrence

/-- The level at `i` served a write to the line of `a`. -/
def Writes (i : ℕ) (m : AddressMap) (a : UInt64) (entry : Occurrence) : Prop :=
  ∃ r outcome, entry = served i r outcome ∧ r.WritesTo m a

/-- The level at `i` sent the line of `a` back. -/
def SendsBack (i : ℕ) (m : AddressMap) (a : UInt64) (entry : Occurrence) : Prop :=
  ∃ link q, entry = forwarded i link q ∧ q.WritesBack m a

/-- The level at `i` served a write to the line of `a` and did not send the line back later. -/
def Pending (i : ℕ) (m : AddressMap) (a : UInt64) : List Occurrence → Prop
  | [] => False
  | entry :: log =>
    Pending i m a log ∨ (entry.Writes i m a ∧ ∀ later ∈ log, ¬ later.SendsBack i m a)

section

variable {i : ℕ} {m : AddressMap} {a : UInt64}

theorem Writes.isAt {entry : Occurrence} (h : entry.Writes i m a) : entry.isAt i = true := by
  obtain ⟨r, outcome, rfl, -⟩ := h
  simp

theorem SendsBack.isAt {entry : Occurrence} (h : entry.SendsBack i m a) : entry.isAt i = true := by
  obtain ⟨link, q, rfl, -⟩ := h
  simp

@[simp] theorem sendsBack_forwarded_iff {k : ℕ} {link : Link} {q : Request} :
    (forwarded k link q).SendsBack i m a ↔ k = i ∧ q.WritesBack m a := by
  constructor
  · rintro ⟨link', q', heq, hback⟩
    obtain ⟨rfl, -, rfl⟩ := forwarded.inj heq
    exact ⟨rfl, hback⟩
  · rintro ⟨rfl, hback⟩
    exact ⟨link, q, rfl, hback⟩

@[simp] theorem not_sendsBack_served {k : ℕ} {r : Request} {outcome : Outcome} :
    ¬ (served k r outcome).SendsBack i m a := nofun

theorem pending_append {log log' : List Occurrence} :
    Pending i m a (log ++ log') ↔
      Pending i m a log' ∨ (Pending i m a log ∧ ∀ later ∈ log', ¬ later.SendsBack i m a) := by
  induction log with
  | nil => simp [Pending]
  | cons entry log ih =>
    simp only [List.cons_append, Pending, ih, List.mem_append, or_imp, forall_and]
    tauto

/-- Only what the level itself did counts. -/
theorem pending_filter {log : List Occurrence} :
    Pending i m a (log.filter (isAt i)) ↔ Pending i m a log := by
  induction log with
  | nil => rfl
  | cons entry log ih =>
    have hlater : (∀ later ∈ log.filter (isAt i), ¬ later.SendsBack i m a) ↔
        ∀ later ∈ log, ¬ later.SendsBack i m a := by
      refine ⟨?_, fun h later hmem => h later (List.mem_of_mem_filter hmem)⟩
      intro h later hmem hback
      exact h later (List.mem_filter.mpr ⟨hmem, hback.isAt⟩) hback
    by_cases hat : entry.isAt i = true
    · rw [List.filter_cons_of_pos hat, Pending, Pending, ih, hlater]
    · rw [List.filter_cons_of_neg hat, Pending, ih]
      exact (or_iff_left fun h => hat h.1.isAt).symm

/-- A pending write can be pointed at. -/
theorem pending_iff_exists {log : List Occurrence} :
    Pending i m a log ↔ ∃ (before later : List Occurrence) (r : Request) (outcome : Outcome),
      log = before ++ served i r outcome :: later ∧ r.WritesTo m a ∧
        ∀ entry ∈ later, ¬ entry.SendsBack i m a := by
  constructor
  · intro h
    induction log with
    | nil => cases h
    | cons entry log ih =>
      rcases h with h | ⟨⟨r, outcome, rfl, hwrites⟩, hlater⟩
      · obtain ⟨before, later, r, outcome, rfl, hrest⟩ := ih h
        exact ⟨entry :: before, later, r, outcome, rfl, hrest⟩
      · exact ⟨[], log, r, outcome, rfl, hwrites, hlater⟩
  · rintro ⟨before, later, r, outcome, rfl, hwrites, hlater⟩
    exact pending_append.mpr (Or.inl (Or.inr ⟨⟨r, outcome, rfl, hwrites⟩, hlater⟩))

theorem Pending.exists_writes {log : List Occurrence} (h : Pending i m a log) :
    ∃ entry ∈ log, entry.Writes i m a := by
  obtain ⟨before, later, r, outcome, rfl, hwrites, -⟩ := pending_iff_exists.mp h
  exact ⟨served i r outcome, by simp, r, outcome, rfl, hwrites⟩

end

end Occurrence

open Occurrence

/-! ## The account of a level tells which lines are dirty -/

namespace Level

section

variable {k : ℕ} (level : Level) {link : Link}

/-- The sends of a single request that count are its writebacks. -/
theorem forall_entries_not_sendsBack (hnext : level.next = some link) {r : Request} {a : UInt64}
    {m : AddressMap} : (∀ entry ∈ level.entries k r, ¬ entry.SendsBack k m a) ↔
      ∀ q ∈ (level.cache.access r).forwards, ¬ q.WritesBack m a := by
  simp [entries, sent, hnext]

/-- Requests that were sent are no writes that were served. -/
theorem not_pending_sent {next : Option Link} {qs : List Request} {a : UInt64} {m : AddressMap} :
    ¬ Pending k m a (sent k next qs) := by
  rw [pending_iff_exists]
  rintro ⟨before, later, r, outcome, heq, -, -⟩
  have hmem : served k r outcome ∈ sent k next qs := heq ▸ by simp
  cases next with
  | none => cases hmem
  | some link => simp [sent] at hmem

/-- A single request leaves a write pending exactly if it is one. -/
theorem pending_entries (hnext : level.next = some link) (hsound : level.cache.Sound)
    {r : Request} {a : UInt64} :
    Pending k level.cache.geometry.addresses a (level.entries k r) ↔
      r.WritesTo level.cache.geometry.addresses a := by
  constructor
  · rintro (hsent | ⟨⟨r', outcome, heq, hwrites⟩, -⟩)
    · exact absurd hsent not_pending_sent
    · obtain ⟨-, rfl, -⟩ := served.inj heq
      exact hwrites
  · rintro ⟨hwrite, htag⟩
    right
    refine ⟨⟨r, _, rfl, hwrite, htag⟩, ?_⟩
    intro later hlater hback
    rw [hnext] at hlater
    obtain ⟨q, hq, rfl⟩ := List.mem_map.mp hlater
    -- A writeback is never for the line that the request brings in.
    obtain ⟨hevicts, -⟩ :=
      hsound.exists_writesBack_iff.mp ⟨q, hq, (sendsBack_forwarded_iff.mp hback).2⟩
    exact hsound.tag_ne_of_evicts hevicts htag

/-- The dirty lines of a level are the lines with a pending write. -/
theorem isDirty_iff_pending (hnext : level.next = some link) (hbuilt : level.cache.Built)
    (rs : List Request) (a : UInt64) :
    (level.cache.after rs).isDirty a = some true ↔
      Pending k level.cache.geometry.addresses a (level.account k rs) := by
  induction rs using List.reverseRecOn with
  | nil => simp [account, Pending, hbuilt.isDirty_eq_none]
  | append_singleton rs r ih =>
    have hsound : (level.after rs).cache.Sound := hbuilt.sound.after rs
    have hlast := (level.after rs).pending_entries (k := k) hnext hsound (r := r) (a := a)
    have hkept := (level.after rs).forall_entries_not_sendsBack (k := k) hnext (r := r) (a := a)
      (m := level.cache.geometry.addresses)
    rw [geometry_after] at hlast
    rw [account_append, account, account, List.append_nil, pending_append, hlast, hkept, ← ih,
      Cache.after_append, Cache.after_cons, Cache.after_nil]
    have hlaw := hsound.isDirty_access_iff (r := r) (a := a)
    rw [geometry_after] at hlaw
    exact hlaw

/-- A request sends at most one line back, before anything else. -/
theorem entries_split (hnext : level.next = some link) {r : Request} {a : UInt64} {m : AddressMap}
    {begun later : List Occurrence} {entry : Occurrence}
    (hsplit : level.entries k r = begun ++ entry :: later) (hback : entry.SendsBack k m a) :
    (∃ q ∈ (level.cache.access r).forwards, q.WritesBack m a) ∧
      ∀ earlier ∈ begun, ¬ earlier.SendsBack k m a := by
  obtain ⟨link', q, rfl, hwrite, hbase⟩ := hback
  have hmem : forwarded k link' q ∈ level.entries k r := hsplit ▸ by simp
  have hq := (forwarded_mem_entries_iff.mp hmem).2
  refine ⟨⟨q, hq, hwrite, hbase⟩, ?_⟩
  rw [entries, hnext, sent, Cache.forwards_eq_of_write hq hwrite] at hsplit
  rcases begun with _ | ⟨first, _ | ⟨second, begun⟩⟩
  · cases hsplit
  · obtain ⟨rfl, -⟩ := List.cons.inj hsplit
    simp
  · -- All that is left is the read of the missing line, which is no writeback.
    have hread : [forwarded k link (level.cache.fillRequest r.address)] =
        begun ++ forwarded k link' q :: later := (List.cons.inj (List.cons.inj hsplit).2).2
    have hfill : forwarded k link' q ∈ [forwarded k link (level.cache.fillRequest r.address)] :=
      hread ▸ by simp
    obtain ⟨-, -, rfl⟩ := forwarded.inj (List.mem_singleton.mp hfill)
    cases hwrite

/-- When a line is sent back, a write to it is pending. -/
theorem pending_of_sendsBack (hnext : level.next = some link) (hbuilt : level.cache.Built)
    {rs : List Request} {a : UInt64} {before later : List Occurrence} {entry : Occurrence}
    (hsplit : level.account k rs = before ++ entry :: later)
    (hback : entry.SendsBack k level.cache.geometry.addresses a) :
    Pending k level.cache.geometry.addresses a before := by
  induction rs using List.reverseRecOn generalizing later with
  | nil => simp [account] at hsplit
  | append_singleton rs r ih =>
    have hsound : (level.after rs).cache.Sound := hbuilt.sound.after rs
    rw [account_append, account, account, List.append_nil] at hsplit
    rcases List.append_eq_append_iff.mp hsplit with
      ⟨begun, rfl, hentries⟩ | ⟨rest, haccount, hrest⟩
    · -- The line is sent back because of the last request, so it was dirty before it.
      obtain ⟨hexists, hbegun⟩ := (level.after rs).entries_split hnext hentries hback
      rw [← level.geometry_after rs] at hexists
      have hdirty := (hsound.exists_writesBack_iff.mp hexists).2
      exact pending_append.mpr
        (Or.inr ⟨(level.isDirty_iff_pending hnext hbuilt rs a).mp hdirty, hbegun⟩)
    · cases rest with
      | nil =>
        obtain ⟨rfl, -⟩ := List.cons.inj hrest
        exact absurd hback not_sendsBack_served
      | cons entry' rest =>
        obtain ⟨rfl, -⟩ := List.cons.inj hrest
        exact ih haccount

/-- What a level sends goes down its link, and whatever writes among it is the writeback of a
line. -/
theorem of_mem_account (hsound : level.cache.Sound) {rs : List Request} {link' : Link} {q : Request}
    (hmem : forwarded k link' q ∈ level.account k rs) :
    level.next = some link' ∧
      (q.isWrite = true → q.WritesBack level.cache.geometry.addresses q.address) := by
  induction rs generalizing level with
  | nil => cases hmem
  | cons r rs ih =>
    rcases List.mem_append.mp hmem with hfirst | hrest
    · obtain ⟨hnext, hq⟩ := forwarded_mem_entries_iff.mp hfirst
      exact ⟨hnext, hsound.writesBack_of_mem_forwards hq⟩
    · have hlater := ih (level.after [r]) (hsound.access r) hrest
      rw [geometry_after] at hlater
      exact hlater

end

end Level

/-! ## Writes and writebacks in a network -/

namespace Network

section

variable {net : Network} {k : ℕ} {level : Level} {link : Link}
  (hlevel : net.levels[k]? = some level) (hloop : ¬ Relation.TransGen (Leads net.wiring) k k)
include hlevel hloop

/-- What a level sends in a run goes down its link, and whatever writes among it is the writeback
of a line. -/
theorem of_mem_performAll (hsound : level.cache.Sound) {dispatches : List Dispatch} {link' : Link}
    {q : Request} (hmem : .forwarded k link' q ∈ (net.performAll dispatches).2) :
    level.next = some link' ∧
      (q.isWrite = true → q.WritesBack level.cache.geometry.addresses q.address) := by
  obtain ⟨rs, -, hlog⟩ := tells_performAll hloop dispatches hlevel
  refine level.of_mem_account hsound (?_ : _ ∈ level.account k rs)
  rw [← hlog]
  exact List.mem_filter.mpr ⟨hmem, by simp⟩

variable (hnext : level.next = some link) (hbuilt : level.cache.Built)
include hnext hbuilt

/-- After a run the dirty lines of a level that was new are the lines with a pending write. -/
theorem exists_isDirty_iff_pending (dispatches : List Dispatch) :
    ∃ c, (net.performAll dispatches).1.cache? k = some c ∧ ∀ a, c.isDirty a = some true ↔
      Pending k level.cache.geometry.addresses a (net.performAll dispatches).2 := by
  obtain ⟨rs, hafter, hlog⟩ := tells_performAll hloop dispatches hlevel
  refine ⟨level.cache.after rs, ?_, ?_⟩
  · rw [cache?, hafter]
    rfl
  · intro a
    rw [level.isDirty_iff_pending hnext hbuilt rs a, ← hlog, pending_filter]

/-- In a run a line is only sent back while a write to it is pending. -/
theorem pending_of_performAll_eq {dispatches : List Dispatch} {a : UInt64}
    {before later : List Occurrence} {entry : Occurrence}
    (hsplit : (net.performAll dispatches).2 = before ++ entry :: later)
    (hback : entry.SendsBack k level.cache.geometry.addresses a) :
    Pending k level.cache.geometry.addresses a before := by
  obtain ⟨rs, -, hlog⟩ := tells_performAll hloop dispatches hlevel
  rw [hsplit, List.filter_append, List.filter_cons_of_pos hback.isAt] at hlog
  exact pending_filter.mp (level.pending_of_sendsBack hnext hbuilt hlog.symm hback)

end

end Network

/-- **Dirty lines are the lines written to and not sent back.**  Let a new cache of any shape send
its misses to a recorder, and let it serve any requests.  A line is then dirty exactly if the
history has a write to it after which it was not sent back.  Between two writebacks of a line
there is a write to it.  And whatever writes among the requests sent down bears the base of a line
and writes this line back after a write to it. -/
theorem dirty_iff_written_and_not_sent_back {c : Cache} (hbuilt : c.Built) (rs : List Request) :
    let m := c.geometry.addresses
    let net : Network := { levels := #[⟨c, some .recorder⟩] }
    let done := net.performAll (rs.map (.serve 0))
    (∃ d, done.1.cache? 0 = some d ∧ ∀ a, d.isDirty a = some true ↔
      ∃ (before later : List Occurrence) (r : Request) (outcome : Outcome),
        done.2 = before ++ .served 0 r outcome :: later ∧ r.WritesTo m a ∧
          ∀ entry ∈ later, ¬ entry.SendsBack 0 m a) ∧
    (∀ (a : UInt64) (before between later : List Occurrence) (first second : Occurrence),
      done.2 = before ++ first :: between ++ second :: later →
      first.SendsBack 0 m a → second.SendsBack 0 m a → ∃ entry ∈ between, entry.Writes 0 m a) ∧
    ∀ (before later : List Occurrence) (link : Link) (q : Request),
      done.2 = before ++ .forwarded 0 link q :: later → q.isWrite = true →
      q.WritesBack m q.address ∧ ∃ entry ∈ before, entry.Writes 0 m q.address := by
  intro m net done
  have hlevel : net.levels[0]? = some ⟨c, some .recorder⟩ := rfl
  have hloop : ¬ Relation.TransGen (Network.Leads net.wiring) 0 0 := by
    intro hcycle
    obtain ⟨j, hleads, -⟩ := Relation.TransGen.head'_iff.mp hcycle
    rw [Network.leads_wiring_iff] at hleads
    cases hleads
  refine ⟨?_, ?_, ?_⟩
  · obtain ⟨d, hd, hdirty⟩ :=
      Network.exists_isDirty_iff_pending hlevel hloop rfl hbuilt (rs.map (.serve 0))
    exact ⟨d, hd, fun a => (hdirty a).trans pending_iff_exists⟩
  · intro a before between later first second hsplit hfirst hsecond
    have hpending := Network.pending_of_performAll_eq hlevel hloop rfl hbuilt hsplit hsecond
    rcases pending_append.mp hpending with hbetween | ⟨-, hnone⟩
    · rcases hbetween with hwrite | ⟨⟨r, outcome, rfl, -⟩, -⟩
      · exact hwrite.exists_writes
      · exact absurd hfirst not_sendsBack_served
    · exact absurd hfirst (hnone first List.mem_cons_self)
  · intro before later link q hsplit hwrite
    have hmem : .forwarded 0 link q ∈ done.2 := hsplit ▸ by simp
    have hback := (Network.of_mem_performAll hlevel hloop hbuilt.sound hmem).2 hwrite
    have hpending := Network.pending_of_performAll_eq hlevel hloop rfl hbuilt hsplit
      ⟨link, q, rfl, hback⟩
    exact ⟨hback, hpending.exists_writes⟩

/-- A single line is written to, sent back, and the same once more. -/
theorem dirty_iff_written_and_not_sent_back_twice :
    let c := Cache.fresh .map ⟨1, 1, 8, .fifo⟩ "L1$" default
    let m := c.geometry.addresses
    let rs : List Request := [⟨4, 4, true⟩, ⟨8, 8, false⟩, ⟨0, 8, true⟩, ⟨8, 8, false⟩]
    let net : Network := { levels := #[⟨c, some .recorder⟩] }
    let log := (net.performAll (rs.map (.serve 0))).2
    let back : Occurrence := .forwarded 0 .recorder ⟨0, 8, true⟩
    Cache.buildWith .map ⟨1, 1, 8, .fifo⟩ "L1$" default = .ok c ∧
      log = log.take 4 ++ back :: (log.drop 5).take 5 ++ back :: log.drop 11 ∧
      ∃ entry ∈ (log.drop 5).take 5, entry.Writes 0 m 4 := by
  intro c m rs net log back
  have hbuild : Cache.buildWith .map ⟨1, 1, 8, .fifo⟩ "L1$" default = .ok c := rfl
  have hsplit : log = log.take 4 ++ back :: (log.drop 5).take 5 ++ back :: log.drop 11 := by
    decide
  have hback : back.SendsBack 0 m 4 := ⟨_, _, rfl, rfl, by decide⟩
  obtain ⟨-, hbetween, -⟩ := dirty_iff_written_and_not_sent_back (.fullyAssociative rfl hbuild) rs
  exact ⟨hbuild, hsplit, hbetween 4 _ _ _ back back hsplit hback hback⟩

end CacheModel

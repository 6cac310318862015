import Mathlib
import CacheModel.Proofs.Footprint
import CacheModel.Proofs.Interchange
import CacheModel.Proofs.SameLines
import CacheModel.Proofs.Traffic

/-!
# What a client does besides asking

A client may attach and detach levels and turn reports on and off between its requests.  To the
cache at a level that never leads back to itself none of this makes a difference: afterwards it is
the cache that served the requests that reached its level, one after another, and at most it
reports its misses or does not.

So two caches that were the same once, and whose requests are for the same lines, have the same
hits and hold the same lines, whatever else is done to the networks that they stand in.  If their
requests also agree on whether they write, then all that can differ are the bytes that were counted
and the reports of misses.
-/

namespace CacheModel

namespace Network

/-! ## A cache under commands -/

/-- The requests that reach the level at `k` while the commands are obeyed, from the client or from
other levels. -/
def requestsAt (net : Network) (k : ℕ) (commands : List Command) : List Request :=
  Occurrence.servedAt k (net.obeyEach commands).2.flatten

/-- Whatever the commands attach, at no moment the level at `k` leads back to itself. -/
def NeverLoops (net : Network) (k : ℕ) (commands : List Command) : Prop :=
  ∀ past, past <+: commands →
    ¬ Relation.TransGen (Leads (net.obeyEach past).1.wiring) k k

section

variable {net : Network} {k : ℕ}

theorem requestsAt_cons (command : Command) (commands : List Command) :
    net.requestsAt k (command :: commands) =
      net.requestsAt k [command] ++ (net.obey command).1.requestsAt k commands := by
  rw [requestsAt, requestsAt, requestsAt, ← Occurrence.servedAt_append]
  exact congrArg (Occurrence.servedAt k ·) (by simp [obeyEach])

theorem NeverLoops.not_loop {commands : List Command} (h : net.NeverLoops k commands) :
    ¬ Relation.TransGen (Leads net.wiring) k k :=
  h [] List.nil_prefix

theorem NeverLoops.obey {command : Command} {commands : List Command}
    (h : net.NeverLoops k (command :: commands)) : (net.obey command).1.NeverLoops k commands :=
  fun past hpast => h (command :: past) (List.cons_prefix_cons.mpr ⟨rfl, hpast⟩)

theorem NeverLoops.not_loop_after {commands : List Command} (h : net.NeverLoops k commands) :
    ¬ Relation.TransGen (Leads (net.obeyEach commands).1.wiring) k k :=
  h commands List.prefix_rfl

/-- A request that is served anywhere changes a cache by the requests that reach it. -/
theorem cache?_access (hloop : ¬ Relation.TransGen (Leads net.wiring) k k) {c : Cache}
    (hcache : net.cache? k = some c) (i : ℕ) (r : Request) :
    (net.access i r).1.cache? k =
      some (c.after (Occurrence.servedAt k (net.access i r).2)) := by
  obtain ⟨level, hlevel, rfl⟩ := Option.map_eq_some_iff.mp hcache
  obtain ⟨rs, hafter, hlog⟩ := tells_deliver hloop net.size rfl i r hlevel
  rw [access, ← Occurrence.servedAt_filter, hlog, Level.servedAt_account]
  exact cache?_of_level hafter

/-- A command changes a cache by the requests that reach it because of the command, and by whether
it reports its misses. -/
theorem exists_cache?_obey (hloop : ¬ Relation.TransGen (Leads net.wiring) k k) {c : Cache}
    (hcache : net.cache? k = some c) (command : Command) :
    ∃ logsMisses, (net.obey command).1.cache? k =
      some ((c.after (net.requestsAt k [command])).reporting logsMisses) := by
  cases command with
  | serve i r =>
    have hserved : net.requestsAt k [.serve i r] =
        Occurrence.servedAt k (net.access i r).2 := by simp [requestsAt, obeyEach, Network.obey]
    exact ⟨_, hserved ▸ cache?_access hloop hcache i r⟩
  | setLog i logsMisses =>
    refine ⟨if k = i then logsMisses else c.logsMisses, ?_⟩
    rw [Network.obey, setLog, cache?_modifyCache, hcache]
    by_cases hk : k = i <;> simp only [hk, if_true, if_false] <;> rfl
  | attach i link => exact ⟨c.logsMisses, (cache?_connect net i k _).trans hcache⟩
  | detach i => exact ⟨c.logsMisses, (cache?_connect net i k _).trans hcache⟩

/-- Whatever a client does, to a cache it comes down to the requests that reach it and to whether
it reports its misses in the end. -/
theorem exists_cache?_obeyEach {commands : List Command} (h : net.NeverLoops k commands)
    {c : Cache} (hcache : net.cache? k = some c) :
    ∃ logsMisses, (net.obeyEach commands).1.cache? k =
      some ((c.after (net.requestsAt k commands)).reporting logsMisses) := by
  induction commands generalizing net c with
  | nil => exact ⟨c.logsMisses, hcache⟩
  | cons command commands ih =>
    obtain ⟨first, hfirst⟩ := exists_cache?_obey h.not_loop hcache command
    obtain ⟨logsMisses, hafter⟩ := ih h.obey hfirst
    refine ⟨logsMisses, hafter.trans (congrArg some ?_)⟩
    rw [Cache.after_reporting, ← Cache.after_append, ← requestsAt_cons]
    rfl

/-- What a level sends down for a request, if anything lies below it. -/
theorem sentBy_access (hloop : ¬ Relation.TransGen (Leads net.wiring) k k) {c : Cache}
    (hcache : net.cache? k = some c) (r : Request) :
    Occurrence.sentBy k (net.access k r).2 =
      if (net.next? k).isSome then (c.access r).forwards else [] := by
  obtain ⟨level, hlevel, rfl⟩ := Option.map_eq_some_iff.mp hcache
  have hsize : net.size = net.size - 1 + 1 := by
    have := lt_size_of_cache? hcache
    omega
  rw [access, hsize, ← Occurrence.sentBy_filter, (deliver_self hloop rfl hlevel _ r).2, next?,
    hlevel, Option.bind_some]
  cases hnext : level.next with
  | none => rw [Level.entries, hnext]; rfl
  | some link => exact Level.sentBy_entries hnext r

/-! ## A level that only clients ask -/

theorem OnTop.of_wiring_eq {net' : Network} (h : net.OnTop k) (hw : net'.wiring = net.wiring) :
    net'.OnTop k :=
  fun j hnext => h j (leads_wiring_iff.mp (hw ▸ leads_wiring_iff.mpr hnext))

theorem OnTop.connect (h : net.OnTop k) (i : ℕ) {link : Option Link}
    (hlink : link ≠ some (.level k)) : (net.connect i link).OnTop k := by
  intro j hnext
  rw [next?, levels_connect, Option.bind_map] at hnext
  obtain ⟨level, hlevel, hnext⟩ := Option.bind_eq_some_iff.mp hnext
  by_cases hj : j = i
  · exact hlink (by simpa [hj] using hnext)
  · exact h j (by rw [next?, hlevel]; simpa [hj] using hnext)

theorem OnTop.obey (h : net.OnTop k) {command : Command}
    (hfree : ∀ j, command ≠ .attach j (.level k)) : (net.obey command).1.OnTop k := by
  cases command with
  | serve i r => exact h.of_wiring_eq (wiring_deliver _ net i r)
  | setLog i logsMisses => exact h.of_wiring_eq (wiring_modifyCache net i _)
  | attach i link =>
    refine h.connect i fun hlink => hfree i ?_
    rw [Option.some.inj hlink]
  | detach i => exact h.connect i nofun

/-- A level that only clients ask never leads back to itself, as long as it is attached nowhere. -/
theorem OnTop.neverLoops {commands : List Command} (h : net.OnTop k)
    (hfree : ∀ j, .attach j (.level k) ∉ commands) : net.NeverLoops k commands := by
  induction commands generalizing net with
  | nil =>
    intro past hpast
    rw [List.prefix_nil.mp hpast]
    exact h.not_transGen
  | cons command commands ih =>
    intro past hpast
    cases past with
    | nil => exact h.not_transGen
    | cons first past =>
      obtain ⟨rfl, hrest⟩ := List.cons_prefix_cons.mp hpast
      exact ih (h.obey fun j heq => hfree j (heq ▸ List.mem_cons_self))
        (fun j hmem => hfree j (List.mem_cons_of_mem _ hmem)) past hrest

end

end Network

/-- **Only lines matter.**  Let a cache in use, of any shape, stand in two networks, and let two
clients do what they like to these, as long as the cache never leads back to itself.  If the
requests that reach it are for the same lines, one by one, then afterwards it holds the same lines
in both networks, and the next request for a line hits in both or in none, and at the same way.
Since every beginning of what the clients do is taken here, too, this says so of each request.

If the requests also agree on whether they write, then the dirty bits and all counters agree but
those of bytes; the next request for a line replaces the same, causes the same events but for the
report of a miss, and sends the same requests down, if there is something below the cache in both
networks or in none. -/
theorem only_lines_matter {net net' : Network} {k k' : ℕ} {c : Cache} (hreached : c.Reached)
    (hcache : net.cache? k = some c) (hcache' : net'.cache? k' = some c)
    {commands commands' : List Command}
    (hloop : net.NeverLoops k commands) (hloop' : net'.NeverLoops k' commands')
    (hlines : List.Forall₂ (fun r r' => c.tagOf r.address = c.tagOf r'.address)
      (net.requestsAt k commands) (net'.requestsAt k' commands')) :
    let now := (net.obeyEach commands).1
    let now' := (net'.obeyEach commands').1
    ∃ d d', now.cache? k = some d ∧ now'.cache? k' = some d' ∧
      d.residentLines = d'.residentLines ∧ (∀ a, d.contains a = d'.contains a) ∧
      (∀ r r', c.tagOf r.address = c.tagOf r'.address →
        (d.access r).outcome.isHit = (d'.access r').outcome.isHit ∧
          (d.access r).outcome.way = (d'.access r').outcome.way) ∧
      (List.Forall₂ (fun r r' => c.tagOf r.address = c.tagOf r'.address ∧ r.isWrite = r'.isWrite)
          (net.requestsAt k commands) (net'.requestsAt k' commands') →
        (∀ a, d.isDirty a = d'.isDirty a) ∧
        (∀ q : Counter, q ≠ .bytesRead → q ≠ .bytesWritten →
          d.counters.get q = d'.counters.get q) ∧
        ∀ r r', c.tagOf r.address = c.tagOf r'.address →
          (d.access r).outcome = (d'.access r').outcome ∧
          ((d.access r).effects.filter fun effect => !effect.isReport) =
            ((d'.access r').effects.filter fun effect => !effect.isReport) ∧
          ((now.next? k).isSome = (now'.next? k').isSome →
            Occurrence.sentBy k (now.access k r).2 =
              Occurrence.sentBy k' (now'.access k' r').2)) := by
  have hsound := hreached.sound
  obtain ⟨logs, hnow⟩ := Network.exists_cache?_obeyEach hloop hcache
  obtain ⟨logs', hnow'⟩ := Network.exists_cache?_obeyEach hloop' hcache'
  intro now now'
  have htags : ∀ a, ((c.after (net.requestsAt k commands)).reporting logs).tagOf a = c.tagOf a :=
    Cache.tagOf_after c _
  have hvalid : ((c.after (net.requestsAt k commands)).reporting logs).geometry.Valid :=
    ((hsound.after _).reporting logs).valid
  have hsame := (hsound.sameLines.after hlines).reporting logs logs'
  refine ⟨_, _, hnow, hnow', hsame.residentLines_eq, hsame.contains_eq, fun r r' htag => ?_,
    fun hacts => ?_⟩
  · rw [← htags, ← htags] at htag
    exact ⟨hsame.isHit_eq htag, hsame.way_eq htag⟩
  · obtain ⟨hstate, hcounts⟩ := (Cache.sameState_refl c).after (Cache.sameCounts_refl c) hacts
    have hstate := hstate.reporting logs logs'
    refine ⟨hstate.isDirty_eq, hcounts, fun r r' htag => ?_⟩
    rw [← htags, ← htags] at htag
    refine ⟨hstate.outcome_eq htag, hstate.filter_effects_eq htag hvalid, fun hbelow => ?_⟩
    rw [Network.sentBy_access hloop.not_loop_after hnow,
      Network.sentBy_access hloop'.not_loop_after hnow', hbelow, hstate.forwards_eq htag hvalid]

/-- One client reads and writes whole words and hears of the misses.  The other one asks for other
bytes of the same lines, uses the level below on its own account and attaches it in between. -/
theorem only_lines_matter_two_clients :
    let c := Cache.fresh .array ⟨1, 2, 8, .random⟩ "L1$" default
    let lower := Cache.fresh .array ⟨2, 1, 16, .lru⟩ "L2$" default
    let net : Network := { levels := #[⟨c, some .recorder⟩] }
    let net' : Network := { levels := #[⟨lower, none⟩, ⟨c, none⟩] }
    let commands : List Command :=
      [.serve 0 ⟨0, 8, true⟩, .setLog 0 true, .serve 0 ⟨16, 8, false⟩]
    let commands' : List Command :=
      [.serve 1 ⟨3, 1, true⟩, .serve 0 ⟨64, 8, false⟩, .attach 1 (.level 0),
        .serve 1 ⟨17, 2, false⟩]
    let now := (net.obeyEach commands).1
    let now' := (net'.obeyEach commands').1
    c.Reached ∧ net.NeverLoops 0 commands ∧ net'.NeverLoops 1 commands' ∧
      net.requestsAt 0 commands = [⟨0, 8, true⟩, ⟨16, 8, false⟩] ∧
      net'.requestsAt 1 commands' = [⟨3, 1, true⟩, ⟨17, 2, false⟩] ∧
      ∃ d d', now.cache? 0 = some d ∧ now'.cache? 1 = some d' ∧
        d.residentLines = d'.residentLines ∧ d.isDirty 4 = d'.isDirty 4 ∧
        (d.access ⟨24, 8, false⟩).outcome = (d'.access ⟨30, 2, true⟩).outcome ∧
        Occurrence.sentBy 0 (now.access 0 ⟨24, 8, false⟩).2 =
          Occurrence.sentBy 1 (now'.access 1 ⟨30, 2, true⟩).2 := by
  intro c lower net net' commands commands' now now'
  have hreached : c.Reached :=
    .built (.setAssociative (g := ⟨1, 2, 8, .random⟩) rfl)
  have htop : net.OnTop 0 := by
    intro j hnext
    match j with
    | 0 => cases hnext
    | j + 1 => cases hnext
  have htop' : net'.OnTop 1 := by
    intro j hnext
    match j with
    | 0 => cases hnext
    | 1 => cases hnext
    | j + 2 => cases hnext
  have hloop : net.NeverLoops 0 commands := htop.neverLoops (by simp [commands])
  have hloop' : net'.NeverLoops 1 commands' := htop'.neverLoops (by simp [commands'])
  have hreach : net.requestsAt 0 commands = [⟨0, 8, true⟩, ⟨16, 8, false⟩] := by decide
  have hreach' : net'.requestsAt 1 commands' = [⟨3, 1, true⟩, ⟨17, 2, false⟩] := by decide
  have hacts : List.Forall₂ (fun r r' =>
      c.tagOf r.address = c.tagOf r'.address ∧ r.isWrite = r'.isWrite)
      (net.requestsAt 0 commands) (net'.requestsAt 1 commands') := by
    rw [hreach, hreach']
    exact .cons (by decide) (.cons (by decide) .nil)
  have hlines := hacts.imp fun _ _ hact => hact.1
  obtain ⟨d, d', hd, hd', hcount, -, -, hrest⟩ :=
    only_lines_matter hreached rfl rfl hloop hloop' hlines
  obtain ⟨hdirty, -, hnext⟩ := hrest hacts
  obtain ⟨houtcome, -, hsent⟩ := hnext ⟨24, 8, false⟩ ⟨30, 2, true⟩ (by decide)
  exact ⟨hreached, hloop, hloop', hreach, hreach', d, d', hd, hd', hcount, hdirty 4, houtcome,
    hsent (by decide)⟩

end CacheModel

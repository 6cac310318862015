import Mathlib
import CacheModel.Proofs.Writeback

/-!
# The way of a written line down a chain

A chain of caches ends at a recorder, and no cache of it has longer lines than the one below.  A
line that is written to at the top of a chain is dirty there until it is sent back.  It is then
written at the level below before anything else happens, because requests between levels are
answered at once and because the base of a line lies in the same, possibly longer line below.  So
the same argument applies one level further down: at any time the line has been sent back by some
levels of the chain, one after another from the top, and it is dirty in the next one, unless it
has been handed to the recorder.

Other levels of the network may send their misses into the chain, requests may be made to any
level, and nothing is asked of levels that do not belong to the chain.
-/

namespace CacheModel

namespace Network

/-- The levels of the path send their misses each to the next one, and the last one to a recorder.
Lines do not get shorter on the way down. -/
inductive Chain (net : Network) : List ℕ → Prop
  | bottom {i : ℕ} (hnext : net.next? i = some .recorder) : Chain net [i]
  | level {i j : ℕ} {path : List ℕ} {c d : Cache} (hnext : net.next? i = some (.level j))
      (hupper : net.cache? i = some c) (hlower : net.cache? j = some d)
      (hlines : c.geometry.lineBytes ≤ d.geometry.lineBytes) (hbelow : Chain net (j :: path)) :
      Chain net (i :: j :: path)

/-- The level at `i` sent the line of `a` back. -/
def SendsBack (net : Network) (i : ℕ) (a : UInt64) (entry : Occurrence) : Prop :=
  ∃ c, net.cache? i = some c ∧ entry.SendsBack i c.geometry.addresses a

/-- In the account the line of `a` was sent back by some levels from the top of the path, one
after another, and now it is dirty at the next one, unless all of them sent it back. -/
def Descended (net now : Network) (a : UInt64) (path : List ℕ) (log : List Occurrence) : Prop :=
  ∃ sent : List Occurrence, sent.Sublist log ∧
    List.Forall₂ (fun i entry => net.SendsBack i a entry) (path.take sent.length) sent ∧
    (sent.length = path.length ∨ ∃ i c, path[sent.length]? = some i ∧
      now.cache? i = some c ∧ c.isDirty a = some true)

section

variable {net now : Network} {a : UInt64} {i : ℕ} {path : List ℕ} {log log' : List Occurrence}

/-- Below the last level of a path there is nowhere to go. -/
theorem descended_nil : Descended net now a [] log :=
  ⟨[], List.nil_sublist log, .nil, Or.inl rfl⟩

theorem descended_of_isDirty {c : Cache} (hcache : now.cache? i = some c)
    (hdirty : c.isDirty a = some true) : Descended net now a (i :: path) log :=
  ⟨[], List.nil_sublist log, .nil, Or.inr ⟨i, c, rfl, hcache, hdirty⟩⟩

theorem Descended.mono (h : Descended net now a path log) (hlog : log.Sublist log') :
    Descended net now a path log' := by
  obtain ⟨sent, hsent, hpath, hnow⟩ := h
  exact ⟨sent, hsent.trans hlog, hpath, hnow⟩

/-- A line that goes down the rest of the path after it was sent back at the top goes down all of
the path. -/
theorem Descended.of_sendsBack {entry : Occurrence} (hback : net.SendsBack i a entry)
    (h : Descended net now a path log) : Descended net now a (i :: path) (entry :: log) := by
  obtain ⟨sent, hsent, hpath, hnow⟩ := h
  refine ⟨entry :: sent, hsent.cons_cons entry, ?_, ?_⟩
  · rw [List.length_cons, List.take_succ_cons]
    exact .cons hback hpath
  · simpa using hnow

end

section

variable {net : Network} {path : List ℕ}

/-- No level of a chain leads back to itself. -/
theorem Chain.not_loop (hchain : net.Chain path) :
    ∀ i ∈ path, ¬ Relation.TransGen (Leads net.wiring) i i := by
  induction hchain with
  | @bottom i hnext =>
    intro k hk hcycle
    obtain rfl := List.mem_singleton.mp hk
    obtain ⟨j, hleads, -⟩ := Relation.TransGen.head'_iff.mp hcycle
    rw [leads_wiring_iff, hnext] at hleads
    cases hleads
  | @level i j path c d hnext _ _ _ _ ih =>
    intro k hk hcycle
    rcases List.mem_cons.mp hk with rfl | hk
    · -- The cycle would lead through the next level, which is on no cycle.
      have hleads : Leads net.wiring k j := leads_wiring_iff.mpr hnext
      obtain ⟨j', hleads', hback⟩ := Relation.TransGen.head'_iff.mp hcycle
      obtain rfl := hleads.unique hleads'
      exact ih j List.mem_cons_self (.tail' hback hleads)
    · exact ih k hk hcycle

theorem exists_level_of_next? {i : ℕ} {link : Link} (h : net.next? i = some link) :
    ∃ level, net.levels[i]? = some level ∧ level.next = some link := by
  rw [next?, Option.bind_eq_some_iff] at h
  exact h

section

variable {i : ℕ} {level : Level} {link : Link} {a : UInt64} {dispatches : List Dispatch}
  {before later : List Occurrence} {r : Request} {outcome : Outcome}
  (hlevel : net.levels[i]? = some level) (hnext : level.next = some link)
  (hbuilt : level.cache.Built) (hloop : ¬ Relation.TransGen (Leads net.wiring) i i)
  (hlog : (net.performAll dispatches).2 = before ++ .served i r outcome :: later)
  (hwrites : r.WritesTo level.cache.geometry.addresses a)
include hlevel hnext hbuilt hloop hlog hwrites

/-- A line that was written to at a level is dirty there, or it was sent back.  Then it is enough
that it goes down the rest of the path. -/
theorem descended_of_served
    (hrest : ∀ kept entry rest, later = kept ++ entry :: rest →
      entry.SendsBack i level.cache.geometry.addresses a →
        Descended net (net.performAll dispatches).1 a path rest) :
    Descended net (net.performAll dispatches).1 a (i :: path) later := by
  by_cases hback : ∃ entry ∈ later, entry.SendsBack i level.cache.geometry.addresses a
  · obtain ⟨entry, hmem, hback⟩ := hback
    obtain ⟨kept, rest, rfl⟩ := List.append_of_mem hmem
    have hdown := (hrest kept entry rest rfl hback).of_sendsBack
      ⟨level.cache, cache?_of_level hlevel, hback⟩
    exact hdown.mono (List.sublist_append_right kept _)
  · obtain ⟨c, hc, hdirty⟩ :=
      exists_isDirty_iff_pending hlevel hloop hnext hbuilt dispatches
    refine descended_of_isDirty hc ((hdirty a).mpr (Occurrence.pending_iff_exists.mpr ?_))
    exact ⟨before, later, r, outcome, hlog, hwrites, fun entry hmem h => hback ⟨entry, hmem, h⟩⟩

end

/-- A line that is sent back to another level is written there next. -/
theorem exists_served_of_sendsBack {i j : ℕ} {level : Level} {lower : Cache} {a : UInt64}
    (hlevel : net.levels[i]? = some level) (hlink : level.next = some (.level j))
    (hlower : net.cache? j = some lower) (hloop : ¬ Relation.TransGen (Leads net.wiring) i i)
    (hloop' : ¬ Relation.TransGen (Leads net.wiring) j j) (hupper : level.cache.Sound)
    (hvalid : lower.geometry.Valid)
    (hlines : level.cache.geometry.lineBytes ≤ lower.geometry.lineBytes)
    {dispatches : List Dispatch} {before rest : List Occurrence} {entry : Occurrence}
    (hlog : (net.performAll dispatches).2 = before ++ entry :: rest)
    (hback : entry.SendsBack i level.cache.geometry.addresses a) :
    ∃ q outcome rest', rest = .served j q outcome :: rest' ∧
      q.WritesTo lower.geometry.addresses a := by
  obtain ⟨link, q, rfl, hwrite, hbase⟩ := hback
  have hmem : .forwarded i link q ∈ (net.performAll dispatches).2 := hlog ▸ by simp
  obtain rfl : Link.level j = link := by
    simpa [hlink] using (of_mem_performAll hlevel hloop hupper hmem).1
  have hanswered := answered_performAll (lt_size_of_cache? hlower) hloop' dispatches
  rw [hlog] at hanswered
  obtain ⟨outcome, rest', rfl⟩ := hanswered.exists_served
  refine ⟨q, outcome, rest', rfl, hwrite, ?_⟩
  rw [hbase]
  exact hupper.valid.tag_lineBase_of_le hvalid hlines a

/-- A line that is written to at the top of a chain of new caches goes down the chain. -/
theorem Chain.descended (hchain : net.Chain path)
    (hbuilt : ∀ i ∈ path, ∀ c, net.cache? i = some c → c.Built) (dispatches : List Dispatch)
    {a : UInt64} {first : ℕ} {before later : List Occurrence} {r : Request} {outcome : Outcome}
    {c : Cache} (hfirst : path.head? = some first) (hcache : net.cache? first = some c)
    (hwrites : r.WritesTo c.geometry.addresses a)
    (hlog : (net.performAll dispatches).2 = before ++ .served first r outcome :: later) :
    Descended net (net.performAll dispatches).1 a path later := by
  have hloop := hchain.not_loop
  induction hchain generalizing first before later r outcome c with
  | @bottom i hnext =>
    obtain rfl : i = first := by simpa using hfirst
    obtain ⟨level, hlevel, hlink⟩ := exists_level_of_next? hnext
    obtain rfl : c = level.cache := by simpa [hcache] using cache?_of_level hlevel
    exact descended_of_served hlevel hlink (hbuilt i List.mem_cons_self _ hcache)
      (hloop i List.mem_cons_self) hlog hwrites fun _ _ _ _ _ => descended_nil
  | @level i j path upper lower hnext hupper hlower hlines hbelow ih =>
    obtain rfl : i = first := by simpa using hfirst
    obtain rfl : upper = c := by simpa [hcache] using hupper.symm
    obtain ⟨level, hlevel, hlink⟩ := exists_level_of_next? hnext
    obtain rfl : upper = level.cache := by simpa [hcache] using cache?_of_level hlevel
    have hnew := hbuilt i List.mem_cons_self _ hcache
    have hvalid := (hbuilt j (by simp) lower hlower).sound.valid
    have hloop' := hloop i List.mem_cons_self
    apply descended_of_served hlevel hlink hnew hloop' hlog hwrites
    intro kept entry rest hlater hback
    -- The line was sent back, so it was written one level further down.
    have hsplit : (net.performAll dispatches).2 =
        (before ++ .served i r outcome :: kept) ++ entry :: rest := by
      simp [hlog, hlater]
    obtain ⟨q, outcome', rest', rfl, hwrites'⟩ := exists_served_of_sendsBack hlevel hlink hlower
      hloop' (hloop j (by simp)) hnew.sound hvalid hlines hsplit hback
    have hsplit' : (net.performAll dispatches).2 =
        (before ++ .served i r outcome :: (kept ++ [entry])) ++
          .served j q outcome' :: rest' := by
      simp [hsplit]
    have hbelow' := ih (fun k hk => hbuilt k (List.mem_cons_of_mem i hk)) rfl hlower hwrites'
      hsplit' (fun k hk => hloop k (List.mem_cons_of_mem i hk))
    exact hbelow'.mono (List.sublist_cons_self _ rest')

/-- A request to a level that exists is served there first of all. -/
theorem exists_perform_serve {i : ℕ} (hi : i < net.size) (r : Request) :
    ∃ outcome log, (net.perform (.serve i r)).2 = .served i r outcome :: log := by
  obtain ⟨depth, hdepth⟩ := Nat.exists_eq_add_one.mpr ((Nat.zero_le i).trans_lt hi)
  rw [perform, access, hdepth, deliver_succ (Array.getElem?_eq_getElem hi)]
  exact ⟨_, _, rfl⟩

theorem Chain.exists_cache (hchain : net.Chain path) {first : ℕ}
    (hfirst : path.head? = some first) : ∃ c, net.cache? first = some c := by
  have hnext : ∃ link, net.next? first = some link := by
    cases hchain with
    | @bottom i hnext => exact ⟨_, Option.some.inj hfirst ▸ hnext⟩
    | @level i j path c d hnext => exact ⟨_, Option.some.inj hfirst ▸ hnext⟩
  obtain ⟨link, hnext⟩ := hnext
  obtain ⟨level, hlevel, -⟩ := exists_level_of_next? hnext
  exact ⟨_, cache?_of_level hlevel⟩

end

end Network

open Network

/-- **No written line is lost on its way down.**  In any network take a chain of new caches, of
any shapes, stores and policies, whose lines do not get shorter on the way down.  Write to an
address at the top of the chain at any time.  At every later time the line has gone down the
chain: some levels from the top sent it back, one after another since the write, and then it is
dirty in the next one, unless all of them sent it back. -/
theorem written_line_not_lost {net : Network} {path : List ℕ} (hchain : net.Chain path)
    (hbuilt : ∀ i ∈ path, ∀ c, net.cache? i = some c → c.Built) {first : ℕ}
    (hfirst : path.head? = some first) (past : List Dispatch) {r : Request}
    (hwrite : r.isWrite = true) (future : List Dispatch) :
    let now := net.performAll (past ++ .serve first r :: future)
    ∃ outcome later, now.2 = (net.performAll past).2 ++ .served first r outcome :: later ∧
      ∃ sent : List Occurrence, sent.Sublist later ∧
        List.Forall₂ (fun i entry => net.SendsBack i r.address entry)
          (path.take sent.length) sent ∧
        (sent.length = path.length ∨ ∃ i c, path[sent.length]? = some i ∧
          now.1.cache? i = some c ∧ c.isDirty r.address = some true) := by
  intro now
  obtain ⟨c, hcache⟩ := hchain.exists_cache hfirst
  have hsize : first < (net.performAll past).1.size := by
    rw [← size_wiring, wiring_performAll, size_wiring]
    exact lt_size_of_cache? hcache
  obtain ⟨outcome, log, hserved⟩ := exists_perform_serve hsize r
  have hnow : now.2 = (net.performAll past).2 ++ .served first r outcome ::
      (log ++ ((((net.performAll past).1.perform (.serve first r)).1).performAll future).2) := by
    simp only [now, performAll_append, performAll_cons, hserved, List.cons_append]
  exact ⟨outcome, _, hnow, hchain.descended hbuilt _ hfirst hcache ⟨hwrite, rfl⟩ hnow⟩

/-- A chain of two levels whose lower one is shared with another cache.  The line that was written
to leaves both of them within the next request. -/
theorem written_line_not_lost_shared :
    let upper := Cache.fresh .map ⟨1, 1, 8, .lru⟩ "L1$" default
    let lower := Cache.fresh .array ⟨2, 1, 16, .random⟩ "L2$" default
    let net : Network :=
      { levels := #[⟨upper, some (.level 2)⟩, ⟨upper, some (.level 2)⟩, ⟨lower, some .recorder⟩] }
    let past : List Dispatch := [.serve 1 ⟨64, 8, true⟩]
    let r : Request := ⟨4, 4, true⟩
    let now := net.performAll (past ++ .serve 0 r :: [.serve 0 ⟨32, 8, false⟩])
    net.Chain [0, 2] ∧ (∀ i ∈ [0, 2], ∀ c, net.cache? i = some c → c.Built) ∧ r.isWrite = true ∧
      ∃ outcome later, now.2 = (net.performAll past).2 ++ .served 0 r outcome :: later ∧
        ∃ sent : List Occurrence, sent.Sublist later ∧
          List.Forall₂ (fun i entry => net.SendsBack i 4 entry) ([0, 2].take sent.length) sent ∧
          (sent.length = 2 ∨ ∃ i c, [0, 2][sent.length]? = some i ∧ now.1.cache? i = some c ∧
            c.isDirty 4 = some true) := by
  intro upper lower net past r now
  have hchain : net.Chain [0, 2] :=
    .level (c := upper) (d := lower) rfl rfl rfl (by decide) (.bottom rfl)
  have hbuilt : ∀ i ∈ [0, 2], ∀ c, net.cache? i = some c → c.Built := by
    intro i hi c hc
    obtain rfl | rfl : i = 0 ∨ i = 2 := by simpa using hi
    · obtain rfl : upper = c := Option.some.inj hc
      exact .fullyAssociative (g := ⟨1, 1, 8, .lru⟩) rfl rfl
    · obtain rfl : lower = c := Option.some.inj hc
      exact .setAssociative (g := ⟨2, 1, 16, .random⟩) rfl
  exact ⟨hchain, hbuilt, rfl, written_line_not_lost hchain hbuilt rfl past rfl _⟩

end CacheModel

import Mathlib
import CacheModel.Proofs.Account
import CacheModel.Proofs.Decomposition
import CacheModel.Proofs.Tally

/-!
# Traffic between levels

A level serves what clients ask of it and what is sent to it, and nothing else.  What is sent to
it comes from the levels whose link leads there: each of their misses sends one read and each of
their writebacks one write, of a whole line.  Summed up over a run this balances the counters of
every level with the counters of the levels above it.  The counters are words, so the sums are
taken modulo the size of a word.
-/

namespace CacheModel

/-! ## What is served and what is sent -/

namespace Occurrence

/-- The request that the level at `k` served, if the entry tells of one. -/
def servedAt? (k : ℕ) : Occurrence → Option Request
  | served level request _ => if level = k then some request else none
  | notice _ => none
  | forwarded _ _ _ => none

/-- The request that the level at `k` sent down, if the entry tells of one. -/
def sentBy? (k : ℕ) : Occurrence → Option Request
  | served _ _ _ => none
  | notice _ => none
  | forwarded level _ request => if level = k then some request else none

/-- The request that was sent to the level at `k`, if the entry tells of one. -/
def sentTo? (k : ℕ) : Occurrence → Option Request
  | served _ _ _ => none
  | notice _ => none
  | forwarded _ link request => if link = .level k then some request else none

/-- The requests that a level served, in order. -/
def servedAt (k : ℕ) (log : List Occurrence) : List Request :=
  log.filterMap (servedAt? k)

/-- The requests that a level sent down, in order. -/
def sentBy (k : ℕ) (log : List Occurrence) : List Request :=
  log.filterMap (sentBy? k)

/-- The requests that were sent to a level, in order. -/
def sentTo (k : ℕ) (log : List Occurrence) : List Request :=
  log.filterMap (sentTo? k)

section

variable (k : ℕ) (log log' : List Occurrence)

theorem servedAt_append : servedAt k (log ++ log') = servedAt k log ++ servedAt k log' :=
  List.filterMap_append

theorem sentBy_append : sentBy k (log ++ log') = sentBy k log ++ sentBy k log' :=
  List.filterMap_append

theorem sentTo_append : sentTo k (log ++ log') = sentTo k log ++ sentTo k log' :=
  List.filterMap_append

@[simp] theorem servedAt_served (i : ℕ) (r : Request) (outcome : Outcome) :
    servedAt k (served i r outcome :: log) = (if i = k then [r] else []) ++ servedAt k log := by
  by_cases h : i = k <;> simp [servedAt, servedAt?, h]

@[simp] theorem servedAt_forwarded (i : ℕ) (link : Link) (q : Request) :
    servedAt k (forwarded i link q :: log) = servedAt k log := rfl

@[simp] theorem sentBy_served (i : ℕ) (r : Request) (outcome : Outcome) :
    sentBy k (served i r outcome :: log) = sentBy k log := rfl

@[simp] theorem sentBy_forwarded (i : ℕ) (link : Link) (q : Request) :
    sentBy k (forwarded i link q :: log) = (if i = k then [q] else []) ++ sentBy k log := by
  by_cases h : i = k <;> simp [sentBy, sentBy?, h]

@[simp] theorem sentTo_served (i : ℕ) (r : Request) (outcome : Outcome) :
    sentTo k (served i r outcome :: log) = sentTo k log := rfl

@[simp] theorem sentTo_forwarded (i : ℕ) (link : Link) (q : Request) :
    sentTo k (forwarded i link q :: log) =
      (if link = .level k then [q] else []) ++ sentTo k log := by
  by_cases h : link = .level k <;> simp [sentTo, sentTo?, h]

/-- What a level served is told by its own entries. -/
theorem servedAt_filter : servedAt k (log.filter (isAt k)) = servedAt k log := by
  rw [servedAt, List.filterMap_filter]
  refine congrArg (fun f => log.filterMap f) (funext fun entry => ?_)
  cases entry <;> simp [servedAt?]

/-- What a level sent down is told by its own entries. -/
theorem sentBy_filter : sentBy k (log.filter (isAt k)) = sentBy k log := by
  rw [sentBy, List.filterMap_filter]
  refine congrArg (fun f => log.filterMap f) (funext fun entry => ?_)
  cases entry <;> simp [sentBy?]

end

end Occurrence

open Occurrence

namespace Level

theorem servedAt_entries (k : ℕ) (level : Level) (r : Request) :
    servedAt k (level.entries k r) = [r] := by
  have hsent : servedAt k (sent k level.next (level.cache.access r).forwards) = [] := by
    cases level.next with
    | none => rfl
    | some link => simp [sent, servedAt, servedAt?]
  rw [entries, servedAt_served, if_pos rfl, hsent, List.append_nil]

theorem sentBy_entries {k : ℕ} {level : Level} {link : Link} (hnext : level.next = some link)
    (r : Request) : sentBy k (level.entries k r) = (level.cache.access r).forwards := by
  rw [entries, hnext, sentBy_served]
  simp [sent, sentBy, sentBy?, List.filterMap_map, Function.comp_def]

/-- The account of a level tells the requests that it served. -/
theorem servedAt_account (k : ℕ) (level : Level) (rs : List Request) :
    servedAt k (level.account k rs) = rs := by
  induction rs generalizing level with
  | nil => rfl
  | cons r rs ih => rw [account, servedAt_append, servedAt_entries, ih, List.singleton_append]

end Level

namespace Network

section

variable {w : Array (Option Link)} {k : ℕ}

/-- In a delivery whose depth exceeds every distance from its level to `k` the level at `k` serves
the request itself, if it is meant for `k`, and all that is sent to `k`, and nothing else. -/
theorem servedAt_deliver (hk : k < w.size) {depth : ℕ} {net : Network} (hw : net.wiring = w)
    {i : ℕ} (hdepth : ∀ {m}, Above w k m i → m < depth) (r : Request) :
    (servedAt k (deliver depth net i r).2).Perm
      ((if i = k then [r] else []) ++ sentTo k (deliver depth net i r).2) := by
  induction depth generalizing net i r with
  | zero =>
    have hne : i ≠ k := by
      rintro rfl
      exact Nat.not_lt_zero _ (hdepth .here)
    rw [if_neg hne]
    exact .refl _
  | succ depth ih =>
    cases hlevel : net.levels[i]? with
    | none =>
      have hne : i ≠ k := by
        rintro rfl
        rw [← hw, size_wiring, size] at hk
        simp [hk] at hlevel
      rw [deliver_of_none hlevel, if_neg hne]
      exact .refl _
    | some level =>
      rw [deliver_succ hlevel, servedAt_served, sentTo_served]
      refine List.Perm.append_left _ ?_
      refine inOrder_rel (I := fun net => net.wiring = w)
        (P := fun _ log _ => (servedAt k log).Perm (sentTo k log)) (fun _ => .refl _) ?_
        (fun hw x => (wiring_carryOut (wiring_deliver depth) _ i _ x).trans hw) ?_
        ((wiring_modifyCache net i _).trans hw) _
      · intro net log net' log' net'' h h'
        rw [servedAt_append, sentTo_append]
        exact h.append h'
      · intro net' hw' effect
        cases effect with
        | notice event => exact .refl _
        | forward q =>
          cases hnext : level.next with
          | none => exact .refl _
          | some link =>
            cases link with
            | recorder => exact .refl _
            | level j =>
              have hleads := leads_of_next hw hlevel hnext
              have hdown := ih hw' (i := j)
                (fun habove => Nat.lt_of_succ_lt_succ (hdepth (.step hleads habove))) q
              simpa [carryOut] using hdown

/-- Everything in the account that was sent went down the link of its level. -/
def Routed (w : Array (Option Link)) (log : List Occurrence) : Prop :=
  ∀ ⦃i link q⦄, .forwarded i link q ∈ log → w[i]? = some (some link)

theorem routed_append {log log' : List Occurrence} (h : Routed w log) (h' : Routed w log') :
    Routed w (log ++ log') := by
  intro i link q hmem
  exact (List.mem_append.mp hmem).elim (h ·) (h' ·)

theorem routed_deliver (depth : ℕ) {net : Network} (hw : net.wiring = w) (i : ℕ) (r : Request) :
    Routed w (deliver depth net i r).2 := by
  refine deliver_rel (P := fun _ log _ => Routed w log) (Q := fun _ => True) (fun _ => nofun)
    routed_append (fun _ _ => trivial) ?_ ?_ ?_ depth hw trivial r
  · intro net i level _ _ r
    simp [Routed]
  · intro net event
    simp [Routed]
  · intro i link _ hlink net q i' link' q' hmem
    obtain ⟨rfl, rfl, -⟩ := forwarded.inj (List.mem_singleton.mp hmem)
    exact hlink

end

end Network

/-- The requests that clients make of a level, in order. -/
def asked (k : ℕ) (dispatches : List Dispatch) : List Request :=
  dispatches.filterMap fun
    | .serve level request => if level = k then some request else none
    | .note _ => none

theorem asked_cons_serve (k i : ℕ) (r : Request) (dispatches : List Dispatch) :
    asked k (.serve i r :: dispatches) = (if i = k then [r] else []) ++ asked k dispatches := by
  by_cases h : i = k <;> simp [asked, h]

namespace Network

/-- In a run a level serves what clients ask of it and what is sent to it. -/
theorem servedAt_performAll {w : Array (Option Link)} {k : ℕ} (hk : k < w.size)
    (hloop : ¬ Relation.TransGen (Leads w) k k) {net : Network} (hw : net.wiring = w)
    (dispatches : List Dispatch) :
    (servedAt k (net.performAll dispatches).2).Perm
      (asked k dispatches ++ sentTo k (net.performAll dispatches).2) := by
  induction dispatches generalizing net with
  | nil => exact .refl _
  | cons dispatch dispatches ih =>
    have hrest := ih ((wiring_perform net dispatch).trans hw)
    rw [performAll_cons]
    cases dispatch with
    | note access => exact hrest
    | serve i r =>
      have hfirst : (servedAt k (net.access i r).2).Perm
          ((if i = k then [r] else []) ++ sentTo k (net.access i r).2) := by
        refine servedAt_deliver hk hw (fun habove => ?_) r
        rw [← size_wiring, hw]
        exact habove.distance_lt_size hloop hk
      rw [servedAt_append, sentTo_append, asked_cons_serve, List.append_assoc]
      refine (hfirst.append hrest).trans ?_
      rw [List.append_assoc]
      exact (List.perm_append_comm_assoc _ _ _).append_left _

/-- A level that does not lead back to itself is after a run what it is after the requests that it
served, and its entries are the account of them. -/
theorem level_performAll {net : Network} {k : ℕ} {level : Level}
    (hlevel : net.levels[k]? = some level) (hloop : ¬ Relation.TransGen (Leads net.wiring) k k)
    (dispatches : List Dispatch) :
    (net.performAll dispatches).1.levels[k]? =
        some (level.after (servedAt k (net.performAll dispatches).2)) ∧
      (net.performAll dispatches).2.filter (isAt k) =
        level.account k (servedAt k (net.performAll dispatches).2) := by
  obtain ⟨rs, hafter, hlog⟩ := tells_performAll hloop dispatches hlevel
  have hserved : servedAt k (net.performAll dispatches).2 = rs := by
    rw [← servedAt_filter, hlog, Level.servedAt_account]
  rw [hserved]
  exact ⟨hafter, hlog⟩

/-- In a run everything that is sent goes down the link of its level. -/
theorem routed_performAll (net : Network) (dispatches : List Dispatch) :
    Routed net.wiring (net.performAll dispatches).2 :=
  performAll_rel (P := fun _ log _ => Routed net.wiring log) (fun _ => nofun) routed_append
    (fun hw i r => routed_deliver _ hw i r) rfl dispatches

end Network

/-- The levels whose misses go to the level at `k`. -/
def Network.senders (w : Array (Option Link)) (k : ℕ) : Finset ℕ :=
  (Finset.range w.size).filter fun u => w[u]? = some (some (.level k))

/-! ## Sums over requests -/

/-- What the reads, or the writes, among the requests are worth together, each by its size. -/
def traffic (isWrite : Bool) (worth : ℕ → ℕ) (rs : List Request) : ℕ :=
  ((rs.filter fun r => r.isWrite == isWrite).map fun r => worth r.bytes.toNat).sum

section

variable (isWrite : Bool) (worth : ℕ → ℕ)

@[simp] theorem traffic_nil : traffic isWrite worth [] = 0 := rfl

theorem traffic_cons (r : Request) (rs : List Request) :
    traffic isWrite worth (r :: rs) =
      (if r.isWrite = isWrite then worth r.bytes.toNat else 0) + traffic isWrite worth rs := by
  by_cases h : r.isWrite = isWrite <;> simp [traffic, h]

theorem traffic_append (rs rs' : List Request) :
    traffic isWrite worth (rs ++ rs') = traffic isWrite worth rs + traffic isWrite worth rs' := by
  simp [traffic]

theorem traffic_one (rs : List Request) :
    traffic isWrite (fun _ => 1) rs = (rs.filter fun r => r.isWrite == isWrite).length := by
  simp [traffic]

theorem traffic_eq_of_perm {rs rs' : List Request} (h : rs.Perm rs') :
    traffic isWrite worth rs = traffic isWrite worth rs' :=
  ((h.filter _).map _).sum_eq

/-- What is sent to a level is what the levels above it send. -/
theorem traffic_sentTo {w : Array (Option Link)} {k : ℕ} {log : List Occurrence}
    (h : Network.Routed w log) :
    traffic isWrite worth (sentTo k log) =
      ∑ u ∈ Network.senders w k, traffic isWrite worth (sentBy u log) := by
  induction log with
  | nil => simp [sentTo, sentBy]
  | cons entry log ih =>
    have hrest := ih fun i link q hmem => h (List.mem_cons_of_mem entry hmem)
    cases entry with
    | served i r outcome => exact hrest
    | notice event => exact hrest
    | forwarded i link q =>
      have hlink : w[i]? = some (some link) := h List.mem_cons_self
      have hi : i < w.size := (Array.getElem?_eq_some_iff.mp hlink).1
      have hsender : i ∈ Network.senders w k ↔ link = .level k := by
        rw [Network.senders, Finset.mem_filter, Finset.mem_range, hlink]
        simp [hi]
      have hsplit : ∀ u, traffic isWrite worth (if i = u then [q] else []) =
          if i = u then traffic isWrite worth [q] else 0 := by
        intro u
        split <;> rfl
      simp only [sentTo_forwarded, sentBy_forwarded, traffic_append, Finset.sum_add_distrib,
        ← hrest, hsplit, Finset.sum_ite_eq, hsender]
      split <;> rfl

end

namespace Cache

/-- How many requests of a kind a request sends down: a miss one read, a writeback one write. -/
def drops : Bool → Cache → Request → ℕ
  | false, c, r => charge .readMisses c r + charge .writeMisses c r
  | true, c, r => charge .writebacks c r

/-- Whole lines are sent down. -/
theorem traffic_forwards (isWrite : Bool) (worth : ℕ → ℕ) (c : Cache) (r : Request) :
    traffic isWrite worth (c.access r).forwards = worth c.lineBytes.toNat * drops isWrite c r := by
  cases hfind : c.find r.address with
  | some way =>
    rw [forwards_of_hit hfind]
    cases isWrite <;> simp [drops, charge, writesBack, contains, hfind]
  | none =>
    rw [forwards_of_miss hfind, traffic_append, traffic_cons]
    cases hback : c.writeback? (c.lineFor r.address) with
    | none =>
      cases isWrite <;> cases hwrite : r.isWrite <;>
        simp [drops, charge, writesBack, contains, fillRequest, hfind, hback, hwrite]
    | some q =>
      obtain ⟨-, -, rfl⟩ := writeback?_eq_some_iff.mp hback
      cases isWrite <;> cases hwrite : r.isWrite <;>
        simp [drops, charge, writesBack, contains, fillRequest, traffic_cons, hfind, hback, hwrite]

@[simp] theorem lineBytes_access (c : Cache) (r : Request) :
    (c.access r).cache.lineBytes = c.lineBytes := by
  rw [lineBytes, geometry_access, lineBytes]

end Cache

/-- The requests of a kind that a cache sent down, by its counters. -/
def Counters.drops : Bool → Counters → UInt64
  | false, counters => counters.misses
  | true, counters => counters.writebacks

theorem Cache.Built.toNat_drops_after {c : Cache} (h : c.Built) (isWrite : Bool)
    (rs : List Request) :
    ((c.after rs).counters.drops isWrite).toNat ≡
      tally (Cache.drops isWrite) c rs [MOD 2 ^ 64] := by
  cases isWrite with
  | true => exact h.toNat_get_after_modEq rs .writebacks
  | false =>
    have hreads := h.toNat_get_after_modEq rs .readMisses
    have hwrites := h.toNat_get_after_modEq rs .writeMisses
    have hsum : tally (Cache.drops false) c rs = _ := tally_add _ _ c rs
    rw [Counters.drops, Counters.misses, UInt64.toNat_add, hsum]
    exact (Nat.mod_modEq _ _).trans (hreads.add hwrites)

/-- What a level sends in a run is worth as much as its misses, or its writebacks, are. -/
theorem Level.traffic_sentBy_account (isWrite : Bool) (worth : ℕ → ℕ) (k : ℕ) {level : Level}
    {link : Link} (hnext : level.next = some link) (rs : List Request) :
    traffic isWrite worth (sentBy k (level.account k rs)) =
      worth level.cache.lineBytes.toNat * Cache.tally (Cache.drops isWrite) level.cache rs := by
  induction rs generalizing level with
  | nil => rfl
  | cons r rs ih =>
    have hrest := @ih (level.after [r]) hnext
    rw [account, sentBy_append, traffic_append, sentBy_entries hnext, Cache.traffic_forwards, hrest,
      Cache.tally, Nat.mul_add]
    simp only [Level.after, Cache.after_cons, Cache.after_nil, Cache.lineBytes_access]

namespace Counter

/-- The counter of the requests of a kind. -/
def accesses : Bool → Counter
  | false => .readAccesses
  | true => .writeAccesses

/-- The counter of the bytes of the requests of a kind. -/
def bytes : Bool → Counter
  | false => .bytesRead
  | true => .bytesWritten

theorem tally_charge_accesses (isWrite : Bool) (c : Cache) (rs : List Request) :
    Cache.tally (Cache.charge (accesses isWrite)) c rs = traffic isWrite (fun _ => 1) rs := by
  induction rs generalizing c with
  | nil => rfl
  | cons r rs ih =>
    rw [Cache.tally, ih, traffic_cons]
    cases isWrite <;> cases hwrite : r.isWrite <;> simp [accesses, Cache.charge, hwrite]

theorem tally_charge_bytes (isWrite : Bool) (c : Cache) (rs : List Request) :
    Cache.tally (Cache.charge (bytes isWrite)) c rs = traffic isWrite id rs := by
  induction rs generalizing c with
  | nil => rfl
  | cons r rs ih =>
    rw [Cache.tally, ih, traffic_cons]
    cases isWrite <;> cases hwrite : r.isWrite <;> simp [bytes, Cache.charge, hwrite]

end Counter

namespace Network

/-- The caches that send their misses to the level at `k`. -/
def uppers (net : Network) (k : ℕ) : List Cache :=
  (net.levels.toList.filter fun level => level.next = some (.level k)).map Level.cache

/-- A sum over the caches above a level, by their places. -/
theorem sum_uppers (net : Network) (k : ℕ) (f : Cache → ℕ) :
    ((net.uppers k).map f).sum =
      ∑ u ∈ senders net.wiring k, (net.cache? u).elim 0 f := by
  have hlist : ∀ levels : List Level,
      (((levels.filter fun level => level.next = some (.level k)).map Level.cache).map f).sum =
        ∑ u ∈ Finset.range levels.length, (levels[u]?).elim 0 fun level =>
          if level.next = some (.level k) then f level.cache else 0 := by
    intro levels
    induction levels with
    | nil => rfl
    | cons level levels ih =>
      rw [List.length_cons, Finset.sum_range_succ']
      simp only [List.getElem?_cons_succ, List.getElem?_cons_zero, Option.elim_some, ← ih]
      by_cases h : level.next = some (.level k) <;> simp [h, Nat.add_comm]
  rw [uppers, hlist, senders, Finset.sum_filter, size_wiring, size, Array.length_toList]
  refine Finset.sum_congr rfl fun u hu => ?_
  have hlt := Finset.mem_range.mp hu
  rw [getElem?_wiring, cache?, Array.getElem?_toList, Array.getElem?_eq_getElem hlt]
  simp

section

variable {net : Network} (hbuilt : ∀ k c, net.cache? k = some c → c.Built)
  (hloop : ∀ k, ¬ Relation.TransGen (Leads net.wiring) k k) (dispatches : List Dispatch)
include hbuilt hloop

/-- After a run the counters of a level tell what it sent down. -/
theorem traffic_sentBy_performAll (isWrite : Bool) (worth : ℕ → ℕ) {u k : ℕ}
    (hsender : u ∈ senders net.wiring k) :
    traffic isWrite worth (sentBy u (net.performAll dispatches).2) ≡
      ((net.performAll dispatches).1.cache? u).elim 0 fun c =>
        worth c.geometry.lineBytes * (c.counters.drops isWrite).toNat [MOD 2 ^ 64] := by
  have hwired := (Finset.mem_filter.mp hsender).2
  rw [getElem?_wiring] at hwired
  obtain ⟨level, hlevel, hnext⟩ := Option.map_eq_some_iff.mp hwired
  obtain ⟨hafter, hlog⟩ := level_performAll hlevel (hloop u) dispatches
  have hnew := hbuilt u _ (cache?_of_level hlevel)
  rw [← sentBy_filter, hlog, level.traffic_sentBy_account isWrite worth u hnext,
    cache?_of_level hafter, Option.elim_some, Level.geometry_after, Cache.lineBytes,
    hnew.sound.valid.toNat_lineBytes]
  exact ((hnew.toNat_drops_after isWrite _).symm).mul_left _

/-- A counter that tells what the requests of a kind are worth grows with what clients ask of the
level and with what the caches above it sent down. -/
theorem get_modEq {q : Counter} {isWrite : Bool} {worth : ℕ → ℕ}
    (hq : ∀ c rs, Cache.tally (Cache.charge q) c rs = traffic isWrite worth rs) {k : ℕ} {c : Cache}
    (hc : (net.performAll dispatches).1.cache? k = some c) :
    (c.counters.get q).toNat ≡ traffic isWrite worth (asked k dispatches) +
      (((net.performAll dispatches).1.uppers k).map fun u =>
        worth u.geometry.lineBytes * (u.counters.drops isWrite).toNat).sum [MOD 2 ^ 64] := by
  have hw := wiring_performAll net dispatches
  have hk : k < net.size := by
    rw [← size_wiring, ← hw, size_wiring]
    exact lt_size_of_cache? hc
  obtain ⟨level, hlevel⟩ : ∃ level, net.levels[k]? = some level :=
    ⟨_, Array.getElem?_eq_getElem hk⟩
  have hafter := (level_performAll hlevel (hloop k) dispatches).1
  obtain rfl := Option.some.inj ((cache?_of_level hafter).symm.trans hc)
  have hserved := servedAt_performAll (by rwa [size_wiring]) (hloop k) rfl dispatches
  calc ((level.cache.after (servedAt k (net.performAll dispatches).2)).counters.get q).toNat
      ≡ traffic isWrite worth (servedAt k (net.performAll dispatches).2) [MOD 2 ^ 64] :=
        hq level.cache _ ▸ (hbuilt k _ (cache?_of_level hlevel)).toNat_get_after_modEq _ q
    _ = traffic isWrite worth (asked k dispatches) + ∑ u ∈ senders net.wiring k,
          traffic isWrite worth (sentBy u (net.performAll dispatches).2) := by
        rw [traffic_eq_of_perm isWrite worth hserved, traffic_append,
          traffic_sentTo isWrite worth (routed_performAll net dispatches)]
    _ ≡ _ [MOD 2 ^ 64] := by
        rw [sum_uppers, hw]
        exact (Nat.ModEq.sum fun u hu =>
          traffic_sentBy_performAll hbuilt hloop dispatches isWrite worth hu).add_left _

end

end Network

/-! ## Caches that are only read -/

namespace Cache

theorem Built.get_eq_zero {c : Cache} (h : c.Built) {rs : List Request} {q : Counter}
    (hzero : tally (charge q) c rs = 0) : (c.after rs).counters.get q = 0 := by
  have hmod := h.toNat_get_after_modEq rs q
  rw [hzero] at hmod
  exact UInt64.toNat_inj.mp (hmod.eq_of_lt_of_lt (UInt64.toNat_lt _) (by norm_num))

/-- A cache that is never written to counts no writes and has nothing to write back. -/
theorem Built.counters_of_reads {c : Cache} (h : c.Built) {rs : List Request}
    (hreads : ∀ r ∈ rs, r.isWrite = false) :
    (c.after rs).counters.writeAccesses = 0 ∧ (c.after rs).counters.bytesWritten = 0 ∧
      (c.after rs).counters.writeMisses = 0 ∧ (c.after rs).counters.writebacks = 0 := by
  have hsoils : tally soils c rs = 0 := tally_eq_zero fun c r hr => by simp [soils, hreads r hr]
  have hbacks : tally (charge .writebacks) c rs = 0 := by
    have hbalance := h.sound.tally_writebacks_add_card rs
    rw [hsoils, h.dirtyTags_eq_empty, Finset.card_empty] at hbalance
    omega
  refine ⟨h.get_eq_zero (q := .writeAccesses) ?_, h.get_eq_zero (q := .bytesWritten) ?_,
    h.get_eq_zero (q := .writeMisses) ?_, h.get_eq_zero hbacks⟩
  all_goals exact tally_eq_zero fun c r hr => by simp [charge, hreads r hr]

end Cache

theorem isWrite_of_mem_requestsOf {accesses : List Access} {r : Request}
    (h : r ∈ requestsOf .instruction accesses) : r.isWrite = false := by
  obtain ⟨a, ha, rfl⟩ := List.mem_map.mp h
  have hside := of_decide_eq_true (List.mem_filter.mp ha).2
  rw [Access.request]
  cases hkind : a.kind <;> simp_all [AccessKind.side, AccessKind.isWrite]

/-- **Traffic balances across levels.**  Take new caches of any shapes, wired without a cycle in
any way, and let clients ask for anything at any of them.  Modulo the size of a word each cache
has then counted the reads that clients asked of it and one for every miss of the caches right
above it, and the writes that clients asked of it and one for every writeback of these caches; the
bytes that it counted are the bytes that clients asked for and a whole line of the cache above for
every such miss and every such writeback.  In a hierarchy the instruction cache is only read: it
never counts a write, a byte written, a write that missed or a writeback. -/
theorem traffic_balances :
    (∀ {net : Network}, (∀ k c, net.cache? k = some c → c.Built) →
      (∀ k, ¬ Relation.TransGen (Network.Leads net.wiring) k k) →
      ∀ (dispatches : List Dispatch) {k : ℕ} {c : Cache},
      let now := (net.performAll dispatches).1
      let reads := (asked k dispatches).filter fun r => !r.isWrite
      let writes := (asked k dispatches).filter fun r => r.isWrite
      now.cache? k = some c →
      c.counters.readAccesses.toNat ≡ reads.length +
          ((now.uppers k).map fun u => u.counters.misses.toNat).sum [MOD 2 ^ 64] ∧
        c.counters.writeAccesses.toNat ≡ writes.length +
          ((now.uppers k).map fun u => u.counters.writebacks.toNat).sum [MOD 2 ^ 64] ∧
        c.counters.bytesRead.toNat ≡ (reads.map fun r => r.bytes.toNat).sum +
          ((now.uppers k).map fun u =>
            u.geometry.lineBytes * u.counters.misses.toNat).sum [MOD 2 ^ 64] ∧
        c.counters.bytesWritten.toNat ≡ (writes.map fun r => r.bytes.toNat).sum +
          ((now.uppers k).map fun u =>
            u.geometry.lineBytes * u.counters.writebacks.toNat).sum [MOD 2 ^ 64]) ∧
    (∀ {d : Description} {h : Hierarchy}, Hierarchy.build d = .ok h →
      ∀ (accesses : List Access) {c : Cache},
      let now := (h.run accesses).1
      now.icache.bind now.network.cache? = some c →
      c.counters.writeAccesses = 0 ∧ c.counters.bytesWritten = 0 ∧
        c.counters.writeMisses = 0 ∧ c.counters.writebacks = 0) := by
  constructor
  · intro net hbuilt hloop dispatches k c now reads writes hc
    have hcount : ∀ isWrite, _ := fun isWrite =>
      Network.get_modEq hbuilt hloop dispatches (Counter.tally_charge_accesses isWrite) hc
    have hbytes : ∀ isWrite, _ := fun isWrite =>
      Network.get_modEq hbuilt hloop dispatches (Counter.tally_charge_bytes isWrite) hc
    simp only [traffic_one, Nat.one_mul] at hcount
    have hreads : (fun r : Request => r.isWrite == false) = fun r => !r.isWrite := by
      funext r
      rw [beq_false]
    have hwrites : (fun r : Request => r.isWrite == true) = fun r => r.isWrite := by
      funext r
      rw [beq_true]
    refine ⟨?_, ?_, ?_, ?_⟩
    · have hcount := hcount false
      rwa [hreads] at hcount
    · have hcount := hcount true
      rwa [hwrites] at hcount
    · have hbytes := hbytes false
      rwa [traffic, hreads] at hbytes
    · have hbytes := hbytes true
      rwa [traffic, hwrites] at hbytes
  · intro d h hbuild accesses c now hc
    obtain ⟨first, second, hfirst, -, hnow⟩ := Hierarchy.exists_run_eq_ofSides hbuild accesses
    have hplace : now.icache.bind now.network.cache? = (first .instruction).map fun c =>
        (c.after (requestsOf .instruction accesses)).reporting d.logMisses := by
      simp only [now, hnow]
      exact Hierarchy.cache?_place_ofSides _ _ .instruction
    rw [hplace] at hc
    obtain ⟨icache, hicache, rfl⟩ := Option.map_eq_some_iff.mp hc
    have hnew : icache.Built := (hicache ▸ hfirst .instruction).built
    exact hnew.counters_of_reads fun r => isWrite_of_mem_requestsOf

/-- Two caches with lines of different lengths send dirty lines to a third one, which a client
writes to as well; and an instruction cache stands beside a data cache that is written to. -/
theorem traffic_balances_shared :
    let small := Cache.fresh .array ⟨1, 1, 8, .lru⟩ "L1$" default
    let long := Cache.fresh .array ⟨1, 1, 16, .fifo⟩ "L1$" default
    let lower := Cache.fresh .array ⟨2, 1, 32, .random⟩ "L2$" default
    let net : Network :=
      { levels := #[⟨small, some (.level 2)⟩, ⟨long, some (.level 2)⟩, ⟨lower, some .recorder⟩] }
    let dispatches : List Dispatch :=
      [.serve 0 ⟨0, 8, true⟩, .serve 1 ⟨64, 4, true⟩, .serve 2 ⟨32, 2, true⟩,
        .serve 0 ⟨8, 8, false⟩, .serve 1 ⟨0, 4, false⟩]
    let now := (net.performAll dispatches).1
    let d : Description :=
      { icache := some ⟨1, 1, 8, .lru⟩
        dcache := some ⟨1, 1, 8, .lru⟩
        l2 := none
        logMisses := false }
    let h := Hierarchy.assemble (some (Cache.fresh .array ⟨1, 1, 8, .lru⟩ icacheName default))
      (some (Cache.fresh .array ⟨1, 1, 8, .lru⟩ dcacheName default)) none
    let trace : List Access := [⟨.store, 0, 8⟩, ⟨.fetch, 0, 4⟩, ⟨.load, 8, 8⟩, ⟨.fetch, 8, 4⟩]
    (∀ k c, net.cache? k = some c → c.Built) ∧
      (∀ k, ¬ Relation.TransGen (Network.Leads net.wiring) k k) ∧
      (∃ c, now.cache? 2 = some c ∧
        c.counters.bytesWritten.toNat ≡ 2 + (8 + 16) [MOD 2 ^ 64]) ∧
      Hierarchy.build d = .ok h ∧
      ∃ c, (h.run trace).1.icache.bind (h.run trace).1.network.cache? = some c ∧
        c.counters.writebacks = 0 := by
  intro small long lower net dispatches now d h trace
  have hbuilt : ∀ k c, net.cache? k = some c → c.Built := by
    intro k c hc
    match k with
    | 0 => exact Option.some.inj hc ▸ .setAssociative (g := ⟨1, 1, 8, .lru⟩) rfl
    | 1 => exact Option.some.inj hc ▸ .setAssociative (g := ⟨1, 1, 16, .fifo⟩) rfl
    | 2 => exact Option.some.inj hc ▸ .setAssociative (g := ⟨2, 1, 32, .random⟩) rfl
    | k + 3 => cases hc
  have hleads : ∀ {i j}, Network.Leads net.wiring i j → i < 2 ∧ j = 2 := by
    intro i j hlink
    have hnext : net.next? i = some (.level j) := Network.leads_wiring_iff.mp hlink
    match i with
    | 0 => exact ⟨by decide, (Link.level.inj (Option.some.inj hnext)).symm⟩
    | 1 => exact ⟨by decide, (Link.level.inj (Option.some.inj hnext)).symm⟩
    | 2 => cases hnext
    | i + 3 => cases hnext
  have hloop : ∀ k, ¬ Relation.TransGen (Network.Leads net.wiring) k k := by
    intro k hcycle
    obtain ⟨_, hfirst, -⟩ := Relation.TransGen.head'_iff.mp hcycle
    obtain ⟨_, -, hlast⟩ := Relation.TransGen.tail'_iff.mp hcycle
    exact (hleads hfirst).1.ne (hleads hlast).2
  have hclient : (((asked 2 dispatches).filter fun r => r.isWrite).map fun r =>
      r.bytes.toNat).sum = 2 := by decide
  have hlines : ((now.uppers 2).map fun u =>
      u.geometry.lineBytes * u.counters.writebacks.toNat).sum = 8 + 16 := by decide
  obtain ⟨c, hc⟩ := Option.isSome_iff_exists.mp (show (now.cache? 2).isSome = true by decide)
  have hbuild : Hierarchy.build d = .ok h := rfl
  obtain ⟨icache, hicache⟩ := Option.isSome_iff_exists.mp (show
    ((h.run trace).1.icache.bind (h.run trace).1.network.cache?).isSome = true by decide)
  obtain ⟨hbalance, hreads⟩ := traffic_balances
  obtain ⟨-, -, -, hwritten⟩ := hbalance hbuilt hloop dispatches hc
  rw [hclient, hlines] at hwritten
  obtain ⟨-, -, -, hbacks⟩ := hreads hbuild trace hicache
  exact ⟨hbuilt, hloop, ⟨c, hc, hwritten⟩, hbuild, icache, hicache, hbacks⟩

end CacheModel

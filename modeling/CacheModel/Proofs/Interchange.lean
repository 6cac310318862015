import Mathlib
import CacheModel.Proofs.Alike
import CacheModel.Proofs.Delivery

/-!
# Caches that cannot be told apart

Two caches are *twins* if they differ at most in how they keep the same lines.  Under an ordered
policy twins answer every request alike, cause the same effects and stay twins: a look-up depends
on the lines alone, and so does the choice of the way that a missing line goes to.

Networks that differ only in caches that behave alike give the same account of whatever a client
does to them.  An array store and a map store of one set with the same ordered policy are twins
when they are new, so one can be put in the place of the other in any network, and no sequence of
requests, attachments and log settings will ever show the difference.
-/

namespace CacheModel

namespace Cache

/-! ## Views -/

/-- What a cache shows without being changed by it. -/
structure View where
  counters : Counters
  residentLines : ℕ
  contains : UInt64 → Bool
  isDirty : UInt64 → Option Bool

/-- What can be seen of a cache. -/
def view (c : Cache) : View :=
  { counters := c.counters
    residentLines := c.residentLines
    contains := c.contains
    isDirty := c.isDirty }

/-! ## Twins -/

/-- The caches hold the same lines at the same ways and agree in everything but the store.  Their
policy is an ordered one. -/
structure Twins (c d : Cache) : Prop where
  name_eq : c.name = d.name
  geometry_eq : c.geometry = d.geometry
  logsMisses_eq : c.logsMisses = d.logsMisses
  counters_eq : c.counters = d.counters
  replacement_eq : c.replacement = d.replacement
  stamped : c.replacement.policy.isStamped = true
  sound_left : c.Sound
  sound_right : d.Sound
  line_eq : ∀ {set way}, set < c.geometry.sets → way < c.geometry.ways →
    c.store.line set way = d.store.line set way

namespace Twins

variable {c d : Cache} (h : Twins c d)
include h

theorem setOf_eq (a : UInt64) : c.setOf a = d.setOf a :=
  setOf_eq_of_geometry_eq h.geometry_eq a

theorem tagOf_eq (a : UInt64) : c.tagOf a = d.tagOf a :=
  tagOf_eq_of_geometry_eq h.geometry_eq a

/-- Every set of a twin holds the same lines as the same set of the other one. -/
theorem alike {set : ℕ} (hset : set < c.geometry.sets) : c.Alike set d set where
  sound_left := h.sound_left
  sound_right := h.sound_right
  set_lt_left := hset
  set_lt_right := h.geometry_eq ▸ hset
  ways_eq := congrArg Geometry.ways h.geometry_eq
  lineBytes_eq := congrArg Geometry.lineBytes h.geometry_eq
  line_eq _ hway := h.line_eq hset hway

/-- Twins make the same choice and remember the same about it. -/
theorem victimize_eq (a : UInt64) :
    c.store.victimize (c.setOf a) c.replacement.tick =
      d.store.victimize (d.setOf a) d.replacement.tick := by
  have hleft : c.replacement.tick.policy.isStamped = true := by
    rw [Replacement.policy_tick]
    exact h.stamped
  have hright : d.replacement.tick.policy.isStamped = true := h.replacement_eq ▸ hleft
  rw [h.sound_left.store.victimize_of_stamped (h.sound_left.setOf_lt a) hleft,
    h.sound_right.store.victimize_of_stamped (h.sound_right.setOf_lt a) hright,
    (h.alike (h.sound_left.setOf_lt a)).places_eq, ← h.setOf_eq, ← h.replacement_eq]

theorem agree : c.Agree d where
  sound_left := h.sound_left
  geometry_eq := h.geometry_eq
  alike := h.alike
  wayFor_eq a := by rw [wayFor, h.victimize_eq, wayFor]

/-- Twins look alike. -/
theorem view_eq : c.view = d.view := by
  simp only [view, View.mk.injEq]
  exact ⟨h.counters_eq, h.agree.residentLines_eq, funext h.agree.contains_eq,
    funext h.agree.isDirty_eq⟩

/-! ### One request -/

theorem effects_eq (r : Request) : (c.access r).effects = (d.access r).effects :=
  h.agree.effects_eq h.name_eq h.logsMisses_eq r

/-- Twins stay twins. -/
theorem access (r : Request) : Twins (c.access r).cache (d.access r).cache where
  name_eq := by rw [name_access, name_access, h.name_eq]
  geometry_eq := by rw [geometry_access, geometry_access, h.geometry_eq]
  logsMisses_eq := by rw [logsMisses_access, logsMisses_access, h.logsMisses_eq]
  counters_eq := h.agree.counters_access h.counters_eq r
  replacement_eq := by
    rw [replacement_access, replacement_access, ← h.agree.find_eq, h.agree.wayFor_eq,
      h.victimize_eq, h.setOf_eq, h.replacement_eq]
  stamped := by
    rw [policy_replacement_access]
    exact h.stamped
  sound_left := h.sound_left.access r
  sound_right := h.sound_right.access r
  line_eq {set way} := by
    rw [geometry_access]
    intro hset hway
    rw [h.sound_left.line_access r hset hway,
      h.sound_right.line_access r (h.geometry_eq ▸ hset) (h.geometry_eq ▸ hway), h.setOf_eq,
      h.agree.outcome_eq, h.line_eq hset hway, lineAfter, lineAfter, h.tagOf_eq,
      h.agree.isDirty_eq]

/-- Log settings do not make a difference between twins. -/
theorem setLog (logsMisses : Bool) :
    Twins { c with logsMisses } { d with logsMisses } where
  name_eq := h.name_eq
  geometry_eq := h.geometry_eq
  logsMisses_eq := rfl
  counters_eq := h.counters_eq
  replacement_eq := h.replacement_eq
  stamped := h.stamped
  sound_left := ⟨h.sound_left.valid, h.sound_left.store, h.sound_left.replacement,
    h.sound_left.home⟩
  sound_right := ⟨h.sound_right.valid, h.sound_right.store, h.sound_right.replacement,
    h.sound_right.home⟩
  line_eq := h.line_eq

end Twins

/-- New caches of the same shape are twins, whatever the kinds of their stores. -/
theorem twins_fresh (kind kind' : StoreKind) {g : Geometry} (name : String)
    (source source' : Source) (hvalid : g.Valid) (hstamped : g.policy.isStamped = true)
    (hkind : kind = .map → g.sets = 1) (hkind' : kind' = .map → g.sets = 1) :
    Twins (fresh kind g name source) (fresh kind' g name source') where
  name_eq := rfl
  geometry_eq := rfl
  logsMisses_eq := rfl
  counters_eq := rfl
  replacement_eq := by
    show Replacement.fresh g.policy _ _ source = Replacement.fresh g.policy _ _ source'
    cases hpolicy : g.policy with
    | random =>
      rw [hpolicy] at hstamped
      cases hstamped
    | lru => rfl
    | fifo => rfl
  stamped := by
    show (Replacement.fresh g.policy _ _ source).policy.isStamped = true
    rw [Replacement.policy_fresh]
    exact hstamped
  sound_left := sound_fresh name source hvalid hkind
  sound_right := sound_fresh name source' hvalid hkind'
  line_eq {set way} _ _ :=
    (TagStore.line_fresh kind g.sets g.ways set way).trans
      (TagStore.line_fresh kind' g.sets g.ways set way).symm

/-- Caches that are related in this way answer alike, and whatever is done to them keeps them
related. -/
structure Bisimulation (R : Cache → Cache → Prop) : Prop where
  outcome_eq : ∀ {c d}, R c d → ∀ r, (c.access r).outcome = (d.access r).outcome
  effects_eq : ∀ {c d}, R c d → ∀ r, (c.access r).effects = (d.access r).effects
  access : ∀ {c d}, R c d → ∀ r, R (c.access r).cache (d.access r).cache
  setLog : ∀ {c d}, R c d → ∀ logsMisses, R { c with logsMisses } { d with logsMisses }

theorem bisimulation_eq : Bisimulation Eq := by
  constructor <;> rintro c d rfl _ <;> rfl

theorem bisimulation_twins : Bisimulation Twins where
  outcome_eq h := h.agree.outcome_eq
  effects_eq h := h.effects_eq
  access h := h.access
  setLog h := h.setLog

end Cache

/-! ## Networks that cannot be told apart -/

/-- What a client can do to the caches of a network. -/
inductive Command where
  | serve (level : ℕ) (request : Request)
  | setLog (level : ℕ) (logsMisses : Bool)
  | attach (level : ℕ) (link : Link)
  | detach (level : ℕ)

namespace Network

/-- Does what a client asks for. -/
def obey (net : Network) : Command → Network × List Occurrence
  | .serve level request => net.access level request
  | .setLog level logsMisses => (net.setLog level logsMisses, [])
  | .attach level link => (net.connect level (some link), [])
  | .detach level => (net.connect level none, [])

/-- Does what a client asks for, one command after another.  Each command has its own account. -/
def obeyEach (net : Network) : List Command → Network × List (List Occurrence)
  | [] => (net, [])
  | command :: commands =>
    let (net, log) := net.obey command
    let (net, logs) := net.obeyEach commands
    (net, log :: logs)

/-- The networks are wired alike, and their caches are related level by level. -/
structure Related (R : ℕ → Cache → Cache → Prop) (net net' : Network) : Prop where
  size_eq : net.size = net'.size
  levels : ∀ {k level level'}, net.levels[k]? = some level → net'.levels[k]? = some level' →
    R k level.cache level'.cache ∧ level.next = level'.next

variable {R : ℕ → Cache → Cache → Prop}

theorem Related.exists_level {net net' : Network} (h : Related R net net') {k : ℕ} {level : Level}
    (hlevel : net.levels[k]? = some level) :
    ∃ level', net'.levels[k]? = some level' ∧ R k level.cache level'.cache ∧
      level.next = level'.next := by
  have hlt : k < net'.levels.size := by
    have := (Array.getElem?_eq_some_iff.mp hlevel).1
    have := h.size_eq
    simp only [size] at this
    omega
  have hlevel' := Array.getElem?_eq_getElem hlt
  exact ⟨_, hlevel', h.levels hlevel hlevel'⟩

theorem Related.getElem?_eq_none {net net' : Network} (h : Related R net net') {k : ℕ}
    (hlevel : net.levels[k]? = none) : net'.levels[k]? = none := by
  rw [Array.getElem?_eq_none_iff] at hlevel ⊢
  have := h.size_eq
  simp only [size] at this
  omega

/-- Related changes of one cache keep networks related. -/
theorem related_modifyCache {net net' : Network} (h : Related R net net') {i : ℕ}
    {f f' : Cache → Cache} (hf : ∀ {level level'}, net.levels[i]? = some level →
      net'.levels[i]? = some level' → R i (f level.cache) (f' level'.cache)) :
    Related R (net.modifyCache i f) (net'.modifyCache i f') where
  size_eq := by rw [size_modifyCache, size_modifyCache, h.size_eq]
  levels {k after after'} hlevel hlevel' := by
    rw [levels_modifyCache, Option.map_eq_some_iff] at hlevel hlevel'
    obtain ⟨level, hlevel, rfl⟩ := hlevel
    obtain ⟨level', hlevel', rfl⟩ := hlevel'
    obtain ⟨hcache, hnext⟩ := h.levels hlevel hlevel'
    by_cases hk : k = i
    · subst hk
      simp only [if_pos]
      exact ⟨hf hlevel hlevel', hnext⟩
    · simp only [if_neg hk]
      exact ⟨hcache, hnext⟩

theorem related_connect {net net' : Network} (h : Related R net net') (i : ℕ)
    (link : Option Link) : Related R (net.connect i link) (net'.connect i link) where
  size_eq := by rw [size_connect, size_connect, h.size_eq]
  levels {k after after'} hlevel hlevel' := by
    rw [levels_connect, Option.map_eq_some_iff] at hlevel hlevel'
    obtain ⟨level, hlevel, rfl⟩ := hlevel
    obtain ⟨level', hlevel', rfl⟩ := hlevel'
    obtain ⟨hcache, hnext⟩ := h.levels hlevel hlevel'
    by_cases hk : k = i
    · simp only [if_pos hk]
      exact ⟨hcache, trivial⟩
    · simp only [if_neg hk]
      exact ⟨hcache, hnext⟩

/-- An effect is carried out alike in related networks if deliveries to the level below are. -/
theorem related_carryOut {depth : ℕ}
    (hdeliver : ∀ {net net' : Network}, Related R net net' → ∀ j r,
      (deliver depth net j r).2 = (deliver depth net' j r).2 ∧
        Related R (deliver depth net j r).1 (deliver depth net' j r).1)
    {net net' : Network} (h : Related R net net') (i : ℕ) (next : Option Link)
    (effect : Effect) :
    (carryOut depth i next net effect).2 = (carryOut depth i next net' effect).2 ∧
      Related R (carryOut depth i next net effect).1 (carryOut depth i next net' effect).1 := by
  match effect, next with
  | .notice _, _ => exact ⟨rfl, h⟩
  | .forward _, none => exact ⟨rfl, h⟩
  | .forward _, some .recorder => exact ⟨rfl, h⟩
  | .forward down, some (.level j) =>
    obtain ⟨hlog, hafter⟩ := hdeliver h j down
    exact ⟨congrArg (List.cons _) hlog, hafter⟩

variable (hR : ∀ k, Cache.Bisimulation (R k))
include hR

/-- A request served in related networks has the same account, and leaves them related. -/
theorem related_deliver {net net' : Network} (h : Related R net net') (depth i : ℕ) (r : Request) :
    (deliver depth net i r).2 = (deliver depth net' i r).2 ∧
      Related R (deliver depth net i r).1 (deliver depth net' i r).1 := by
  induction depth generalizing net net' i r with
  | zero => exact ⟨rfl, h⟩
  | succ depth ih =>
    cases hlevel : net.levels[i]? with
    | none =>
      rw [deliver_of_none hlevel, deliver_of_none (h.getElem?_eq_none hlevel)]
      exact ⟨rfl, h⟩
    | some level =>
      obtain ⟨level', hlevel', hcache, hnext⟩ := h.exists_level hlevel
      rw [deliver_succ hlevel, deliver_succ hlevel', ← hnext, ← (hR i).effects_eq hcache r,
        (hR i).outcome_eq hcache r]
      have hstart : Related R (net.modifyCache i fun _ => (level.cache.access r).cache)
          (net'.modifyCache i fun _ => (level'.cache.access r).cache) :=
        related_modifyCache h fun _ _ => (hR i).access hcache r
      obtain ⟨hlog, hafter⟩ := inOrder_related (carryOut depth i level.next)
        (carryOut depth i level.next) (fun h => related_carryOut ih h i level.next) hstart
        (level.cache.access r).effects
      exact ⟨congrArg (List.cons _) hlog, hafter⟩

theorem related_setLog {net net' : Network} (h : Related R net net') (i : ℕ)
    (logsMisses : Bool) : Related R (net.setLog i logsMisses) (net'.setLog i logsMisses) := by
  apply related_modifyCache h
  intro _ _ hlevel hlevel'
  exact (hR i).setLog (h.levels hlevel hlevel').1 logsMisses

/-- A command has the same account in related networks, and leaves them related. -/
theorem related_obey {net net' : Network} (h : Related R net net') (command : Command) :
    (net.obey command).2 = (net'.obey command).2 ∧
      Related R (net.obey command).1 (net'.obey command).1 := by
  cases command with
  | serve level request =>
    rw [obey, obey, access, access, ← h.size_eq]
    exact related_deliver hR h net.size level request
  | setLog level logsMisses =>
    exact ⟨rfl, related_setLog hR h level logsMisses⟩
  | attach level link => exact ⟨rfl, related_connect h level (some link)⟩
  | detach level => exact ⟨rfl, related_connect h level none⟩

/-- Whatever a client does, related networks give the same accounts and stay related. -/
theorem related_obeyEach {net net' : Network} (h : Related R net net')
    (commands : List Command) :
    (net.obeyEach commands).2 = (net'.obeyEach commands).2 ∧
      Related R (net.obeyEach commands).1 (net'.obeyEach commands).1 := by
  induction commands generalizing net net' with
  | nil => exact ⟨rfl, h⟩
  | cons command commands ih =>
    obtain ⟨hlog, hnext⟩ := related_obey hR h command
    obtain ⟨hlogs, hlast⟩ := ih hnext
    exact ⟨congrArg₂ List.cons hlog hlogs, hlast⟩

end Network

/-! ## One store in the place of the other -/

/-- Twins at one level, and the same caches at all others. -/
def twinsAt (i k : ℕ) : Cache → Cache → Prop :=
  if k = i then Cache.Twins else Eq

theorem bisimulation_twinsAt (i k : ℕ) : Cache.Bisimulation (twinsAt i k) := by
  unfold twinsAt
  split
  · exact Cache.bisimulation_twins
  · exact Cache.bisimulation_eq

namespace Network

/-- Twins in the same place make related networks. -/
theorem related_twinsAt {c d : Cache} (h : Cache.Twins c d) (net : Network) (i : ℕ) :
    Related (twinsAt i) (net.modifyCache i fun _ => c) (net.modifyCache i fun _ => d) where
  size_eq := by rw [size_modifyCache, size_modifyCache]
  levels {k after after'} hlevel hlevel' := by
    rw [levels_modifyCache, Option.map_eq_some_iff] at hlevel hlevel'
    obtain ⟨level, hlevel, rfl⟩ := hlevel
    obtain ⟨level', hlevel', rfl⟩ := hlevel'
    obtain rfl : level = level' := Option.some.inj (hlevel.symm.trans hlevel')
    by_cases hk : k = i
    · simpa [twinsAt, hk] using h
    · simp [twinsAt, hk]

/-- Networks with twins at one level look alike. -/
theorem Related.view_eq {net net' : Network} {i : ℕ} (h : Related (twinsAt i) net net') (k : ℕ) :
    (net.cache? k).map Cache.view = (net'.cache? k).map Cache.view := by
  rw [cache?, cache?]
  cases hlevel : net.levels[k]? with
  | none => rw [h.getElem?_eq_none hlevel]
  | some level =>
    obtain ⟨level', hlevel', hcache, -⟩ := h.exists_level hlevel
    rw [hlevel']
    refine congrArg some ?_
    by_cases hk : k = i
    · rw [twinsAt, if_pos hk] at hcache
      exact hcache.view_eq
    · rw [twinsAt, if_neg hk] at hcache
      exact congrArg Cache.view hcache

/-- Networks with twins at one level are the same at all others. -/
theorem Related.levels_eq {net net' : Network} {i k : ℕ} (h : Related (twinsAt i) net net')
    (hk : k ≠ i) : net.levels[k]? = net'.levels[k]? := by
  cases hlevel : net.levels[k]? with
  | none => rw [h.getElem?_eq_none hlevel]
  | some level =>
    obtain ⟨level', hlevel', hcache, hnext⟩ := h.exists_level hlevel
    rw [twinsAt, if_neg hk] at hcache
    obtain ⟨cache, next⟩ := level
    obtain ⟨cache', next'⟩ := level'
    rw [hlevel', show cache = cache' from hcache, show next = next' from hnext]

end Network

/-- **The kind of store does not show.**  For every shape with one set and an ordered policy both
kinds of caches can be built.  Put either one into any network at any level, and let a client do
what it likes to any level: each command has the same account, which tells hits and misses, ways,
replaced lines, events and forwarded requests in the order of time; afterwards every level looks
the same, and all levels but this one are the same. -/
theorem array_and_map_interchangeable {ways lineBytes : ℕ} {policy : Policy} {g : Geometry}
    (hstamped : policy.isStamped = true)
    (hcheck : (Geometry.mk 1 ways lineBytes policy).check = .ok g)
    (name : String) (source source' : Source) :
    ∃ c d, Cache.buildWith .array g name source = .ok c ∧
      Cache.buildWith .map g name source' = .ok d ∧
      ∀ (net : Network) (i : ℕ) (commands : List Command),
        let onArray := (net.modifyCache i fun _ => c).obeyEach commands
        let onMap := (net.modifyCache i fun _ => d).obeyEach commands
        onArray.2 = onMap.2 ∧
          (∀ k, (onArray.1.cache? k).map Cache.view = (onMap.1.cache? k).map Cache.view) ∧
          ∀ k ≠ i, onArray.1.levels[k]? = onMap.1.levels[k]? := by
  obtain ⟨rfl, hvalid⟩ := Geometry.valid_of_check hcheck
  refine ⟨_, _, Cache.buildWith_of_valid .array name source hvalid,
    Cache.buildWith_of_valid .map name source' hvalid, fun net i commands => ?_⟩
  have htwins := Cache.twins_fresh .array .map name source source' hvalid hstamped nofun
    fun _ => rfl
  obtain ⟨hlogs, hafter⟩ := Network.related_obeyEach (bisimulation_twinsAt i)
    (Network.related_twinsAt htwins net i) commands
  exact ⟨hlogs, hafter.view_eq, fun k hk => hafter.levels_eq hk⟩

/-- Two levels, of which the upper one is exchanged: lines are replaced, written back and fetched
again, and in between the level below is taken away. -/
theorem array_and_map_interchangeable_two_levels :
    Policy.lru.isStamped = true ∧ (Geometry.mk 1 2 8 .lru).check = .ok ⟨1, 2, 8, .lru⟩ ∧
      ∃ c d, Cache.buildWith .array ⟨1, 2, 8, .lru⟩ "D$" default = .ok c ∧
        Cache.buildWith .map ⟨1, 2, 8, .lru⟩ "D$" default = .ok d ∧
        let lower := Cache.fresh .array ⟨2, 1, 16, .random⟩ "L2$" default
        let net : Network := { levels := #[⟨lower, some (.level 1)⟩, ⟨lower, some .recorder⟩] }
        let commands : List Command :=
          [.serve 0 ⟨0, 8, true⟩, .serve 0 ⟨8, 8, false⟩, .serve 0 ⟨0, 8, false⟩, .setLog 0 true,
            .serve 0 ⟨16, 8, true⟩, .detach 0, .serve 0 ⟨24, 8, false⟩, .attach 0 .recorder,
            .serve 0 ⟨0, 8, false⟩]
        ((net.modifyCache 0 fun _ => c).obeyEach commands).2 =
          ((net.modifyCache 0 fun _ => d).obeyEach commands).2 := by
  have hstamped : Policy.lru.isStamped = true := rfl
  have hcheck : (Geometry.mk 1 2 8 .lru).check = .ok ⟨1, 2, 8, .lru⟩ := rfl
  obtain ⟨c, d, hc, hd, hsame⟩ :=
    array_and_map_interchangeable hstamped hcheck "D$" default default
  exact ⟨hstamped, hcheck, c, d, hc, hd, (hsame _ 0 _).1⟩

end CacheModel

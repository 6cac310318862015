import CacheModel.Proofs.Checked
import CacheModel.Proofs.Room

/-!
# No call fails

What is called on a cache, requests and looks alike, comes in any order and with any addresses and
sizes.  Each call is run with the checks of all of its steps.  The conditions that the steps rely on
come from different places: the shape of the cache bounds products and shifts, the map of addresses
stays inside the sets, the stamps were made for the sets and ways of the shape, and the way of a
missing line is one that the store offers.  Soundness of a cache holds all of them together.  A call
in a sound cache passes its checks and leaves a sound cache, and so does a run of calls.
-/

namespace CacheModel

namespace Cache

/-! ## Operations with their checks -/

/-- A cache without lines.  The products of its shape are checked, but not the sizes of its tables:
`Cache.make` asks for their room before it comes to this. -/
def freshChecked (kind : StoreKind) (geometry : Geometry) (name : String) (source : Source) :
    Except Mishap Cache := do
  let store ← TagStore.freshChecked kind geometry.sets geometry.ways
  let replacement ← Replacement.freshChecked geometry.policy geometry.sets geometry.ways source
  return { name, geometry, store, replacement, logsMisses := false, counters := .zero }

/-- Whether the line of `address` is held. -/
def containsChecked (c : Cache) (address : UInt64) : Except Mishap Bool := do
  let (set, tag) ← c.geometry.addresses.decodeChecked address
  let way? ← c.store.findChecked set tag
  return way?.isSome

/-- The dirty bit of the line of `address`, if it is held. -/
def isDirtyChecked (c : Cache) (address : UInt64) : Except Mishap (Option Bool) := do
  let (set, tag) ← c.geometry.addresses.decodeChecked address
  match ← c.store.findChecked set tag with
  | some way =>
    let line ← c.store.lineChecked set way
    return some line.dirty
  | none => return none

/-- Sets the dirty bit of a line that is written. -/
def writtenChecked (store : TagStore) (set way : ℕ) (isWrite : Bool) : Except Mishap TagStore :=
  if isWrite then store.setDirtyChecked set way true else .ok store

/-- Serves a hit at `way`. -/
def serveChecked (c : Cache) (set way : ℕ) (isWrite : Bool) : Except Mishap Cache := do
  let replacement ← c.replacement.touchChecked set way
  let store ← writtenChecked c.store set way isWrite
  return { c with replacement, store }

/-- The request that writes a replaced line back; none unless the line was there and dirty. -/
def writebackChecked? (c : Cache) (replaced : Line) : Except Mishap (Option Request) :=
  if replaced.valid && replaced.dirty then do
    let address ← c.geometry.addresses.lineAddressChecked replaced.tag
    return some { address, bytes := c.lineBytes, isWrite := true }
  else .ok none

/-- The request that reads the line of `address`. -/
def fillRequestChecked (c : Cache) (address : UInt64) : Except Mishap Request := do
  let address ← c.geometry.addresses.lineBaseChecked address
  return { address, bytes := c.lineBytes, isWrite := false }

/-- Chooses a way of `set`, installs the line `tag` there and counts the miss. -/
def fillChecked (c : Cache) (set : ℕ) (tag : UInt64) (isWrite : Bool) :
    Except Mishap (ℕ × Line × Cache) := do
  let (way, chosen) ← c.store.victimizeChecked set c.replacement
  let replacement ← chosen.installChecked set way
  let (replaced, installed) ← c.store.installChecked set way tag
  let writeback? ← c.writebackChecked? replaced
  let store ← writtenChecked installed set way isWrite
  let counters := c.counters.recordMiss isWrite
  return (way, replaced,
    { c with
      store
      replacement
      counters := if writeback?.isSome then counters.recordWriteback else counters })

/-- The effects of a miss, in order. -/
def missEffectsChecked (c : Cache) (r : Request) (replaced : Line) :
    Except Mishap (List Effect) := do
  let writeback? ← c.writebackChecked? replaced
  let read ← c.fillRequestChecked r.address
  return (if c.logsMisses then [.notice (.missed c.name r.isWrite r.address)] else []) ++
    (match writeback? with
      | some request => [.notice (.wroteBack c.name request.address), .forward request]
      | none => []) ++
    [.forward read]

/-- Serves one request.  Its arrival moves the clock and the counters on; these are words that come
round, so that nothing is checked there. -/
def accessChecked (c : Cache) (r : Request) : Except Mishap Step := do
  let arrived := c.arrive r
  let (set, tag) ← c.geometry.addresses.decodeChecked r.address
  match ← c.store.findChecked set tag with
  | some way =>
    let cache ← arrived.serveChecked set way r.isWrite
    return { cache, outcome := .hit way, effects := [] }
  | none =>
    let (way, replaced, cache) ← arrived.fillChecked set tag r.isWrite
    let effects ← c.missEffectsChecked r replaced
    return { cache, outcome := .miss way replaced, effects }

theorem freshChecked_eq (kind : StoreKind) {g : Geometry} (h : g.Valid) (name : String)
    (source : Source) : freshChecked kind g name source = .ok (fresh kind g name source) := by
  rw [freshChecked, TagStore.freshChecked_eq kind h.sets_mul_ways_lt, ok_bind,
    Replacement.freshChecked_eq g.policy h.sets_mul_ways_lt]
  rfl

theorem writtenChecked_eq {store : TagStore} {sets ways set way : ℕ} (h : store.Sound sets ways)
    (hfits : sets * ways < Text.wordLimit) (hset : set < sets) (hway : way < ways)
    (hvalid : (store.line set way).valid = true) (isWrite : Bool) :
    writtenChecked store set way isWrite =
      .ok (if isWrite then store.setDirty set way true else store) := by
  rw [writtenChecked]
  split
  · exact h.setDirtyChecked_eq hfits hset true hway hvalid
  · rfl

section

variable {c : Cache} (h : c.Sound)
include h

theorem Sound.findChecked_eq (a : UInt64) :
    c.store.findChecked (c.setOf a) (c.tagOf a) = .ok (c.find a) :=
  h.store.findChecked_eq h.valid.sets_mul_ways_lt (h.setOf_lt a) _

theorem Sound.decodeChecked_eq (a : UInt64) :
    c.geometry.addresses.decodeChecked a = .ok (c.setOf a, c.tagOf a) :=
  h.valid.decodeChecked_eq a

theorem Sound.containsChecked_eq (a : UInt64) : c.containsChecked a = .ok (c.contains a) := by
  rw [containsChecked, h.decodeChecked_eq, ok_bind]
  dsimp only
  rw [h.findChecked_eq]
  rfl

theorem Sound.isDirtyChecked_eq (a : UInt64) : c.isDirtyChecked a = .ok (c.isDirty a) := by
  rw [isDirtyChecked, h.decodeChecked_eq, ok_bind]
  dsimp only
  rw [h.findChecked_eq, ok_bind, isDirty]
  cases hfind : c.find a with
  | none => rfl
  | some way =>
    obtain ⟨hway, hholds⟩ := h.find_iff.mp hfind
    have hvalid := (Line.holds_iff.mp hholds).1
    dsimp only
    rw [h.store.lineChecked_eq h.valid.sets_mul_ways_lt (h.setOf_lt a) hway hvalid]
    rfl

theorem Sound.writebackChecked?_eq (replaced : Line) :
    c.writebackChecked? replaced = .ok (c.writeback? replaced) := by
  rw [writebackChecked?, writeback?]
  split
  · rw [h.valid.lineAddressChecked_eq]
    rfl
  · rfl

theorem Sound.missEffectsChecked_eq (r : Request) (replaced : Line) :
    c.missEffectsChecked r replaced = .ok (c.missEffects r replaced) := by
  rw [missEffectsChecked, h.writebackChecked?_eq, ok_bind, fillRequestChecked,
    h.valid.lineBaseChecked_eq]
  rfl

/-- A hit passes its checks: the line is there. -/
theorem Sound.serveChecked_eq {r : Request} {way : ℕ} (hfind : c.find r.address = some way) :
    (c.arrive r).serveChecked (c.setOf r.address) way r.isWrite =
      .ok ((c.arrive r).serve (c.setOf r.address) way r.isWrite) := by
  have hfits := h.valid.sets_mul_ways_lt
  obtain ⟨hway, hholds⟩ := h.find_iff.mp hfind
  have htouched := h.replacement.tick.touchChecked_eq hfits (h.setOf_lt r.address) hway
  have hwritten := writtenChecked_eq h.store hfits (h.setOf_lt r.address) hway
    (Line.holds_iff.mp hholds).1 r.isWrite
  refine bind_eq_ok_iff.mpr ⟨_, htouched, ?_⟩
  refine bind_eq_ok_iff.mpr ⟨_, hwritten, ?_⟩
  rfl

/-- A miss passes its checks: the way is one that the store offers, and afterwards the line stands
there. -/
theorem Sound.fillChecked_eq {r : Request} (hfind : c.find r.address = none) :
    (c.arrive r).fillChecked (c.setOf r.address) (c.tagOf r.address) r.isWrite =
      .ok ((c.arrive r).fill (c.setOf r.address) (c.tagOf r.address) r.isWrite) := by
  have hfits := h.valid.sets_mul_ways_lt
  have hset := h.setOf_lt r.address
  have hoffers := h.offers_wayFor r.address
  have hchosen := h.store.victimizeChecked_eq hfits hset h.replacement.tick h.valid.ways_pos
  have hstamped := (TagStore.fits_victimize h.replacement.tick c.store
    (c.setOf r.address)).installChecked_eq hfits hset hoffers.lt
  have hinstalled := h.store.installChecked_eq hfits hset hoffers (c.tagOf r.address)
  have hsound := h.store.install hset hoffers hfind
  have hvalid := h.store.valid_line_install (c.tagOf r.address) hset hoffers
  have hwritten := writtenChecked_eq hsound hfits hset hoffers.lt hvalid r.isWrite
  refine bind_eq_ok_iff.mpr ⟨_, hchosen, ?_⟩
  refine bind_eq_ok_iff.mpr ⟨_, hstamped, ?_⟩
  refine bind_eq_ok_iff.mpr ⟨_, hinstalled, ?_⟩
  refine bind_eq_ok_iff.mpr ⟨_, h.writebackChecked?_eq _, ?_⟩
  refine bind_eq_ok_iff.mpr ⟨_, hwritten, ?_⟩
  rfl

theorem Sound.accessChecked_eq (r : Request) : c.accessChecked r = .ok (c.access r) := by
  refine bind_eq_ok_iff.mpr ⟨_, h.decodeChecked_eq r.address, ?_⟩
  refine bind_eq_ok_iff.mpr ⟨_, h.findChecked_eq r.address, ?_⟩
  cases hfind : c.find r.address with
  | some way =>
    refine bind_eq_ok_iff.mpr ⟨_, h.serveChecked_eq hfind, ?_⟩
    rw [access_of_hit hfind]
    rfl
  | none =>
    refine bind_eq_ok_iff.mpr ⟨_, h.fillChecked_eq hfind, ?_⟩
    refine bind_eq_ok_iff.mpr ⟨_, h.missEffectsChecked_eq r _, ?_⟩
    rw [Cache.access, hfind]
    rfl

end

/-! ## Runs of calls -/

/-- What can be called on a cache. -/
inductive Call where
  | access (request : Request)
  | contains (address : UInt64)
  | isDirty (address : UInt64)
  | residentLines
  /-- Turns the reports of misses on or off. -/
  | logMisses (enabled : Bool)
  deriving Repr, DecidableEq

/-- What a call returns. -/
inductive Answer where
  | served (outcome : Outcome) (effects : List Effect)
  | contained (held : Bool)
  | dirtiness (dirty? : Option Bool)
  | lineCount (lines : ℕ)
  | done
  deriving Repr, DecidableEq

/-- The cache after a call, and its answer. -/
def perform (c : Cache) : Call → Cache × Answer
  | .access r => ((c.access r).cache, .served (c.access r).outcome (c.access r).effects)
  | .contains a => (c, .contained (c.contains a))
  | .isDirty a => (c, .dirtiness (c.isDirty a))
  | .residentLines => (c, .lineCount c.residentLines)
  | .logMisses enabled => ({ c with logsMisses := enabled }, .done)

/-- The cache after a run of calls, and their answers in order. -/
def performAll (c : Cache) : List Call → Cache × List Answer
  | [] => (c, [])
  | call :: calls =>
    let (next, answer) := c.perform call
    let (last, answers) := next.performAll calls
    (last, answer :: answers)

/-- A call with its checks. -/
def performChecked (c : Cache) : Call → Except Mishap (Cache × Answer)
  | .access r => do
    let step ← c.accessChecked r
    return (step.cache, .served step.outcome step.effects)
  | .contains a => do
    let held ← c.containsChecked a
    return (c, .contained held)
  | .isDirty a => do
    let dirty? ← c.isDirtyChecked a
    return (c, .dirtiness dirty?)
  | .residentLines => .ok (c, .lineCount c.residentLines)
  | .logMisses enabled => .ok ({ c with logsMisses := enabled }, .done)

/-- A run of calls with their checks.  It ends at the first check that fails. -/
def performAllChecked (c : Cache) : List Call → Except Mishap (Cache × List Answer)
  | [] => .ok (c, [])
  | call :: calls => do
    let (next, answer) ← c.performChecked call
    let (last, answers) ← next.performAllChecked calls
    return (last, answer :: answers)

section

variable {c : Cache} (h : c.Sound)
include h

theorem Sound.performChecked_eq (call : Call) : c.performChecked call = .ok (c.perform call) := by
  cases call with
  | access r => exact bind_eq_ok_iff.mpr ⟨_, h.accessChecked_eq r, rfl⟩
  | contains a => exact bind_eq_ok_iff.mpr ⟨_, h.containsChecked_eq a, rfl⟩
  | isDirty a => exact bind_eq_ok_iff.mpr ⟨_, h.isDirtyChecked_eq a, rfl⟩
  | residentLines | logMisses => rfl

theorem Sound.perform (call : Call) : (c.perform call).1.Sound := by
  cases call with
  | access r => exact h.access r
  | logMisses => exact ⟨h.valid, h.store, h.replacement, h.home⟩
  | contains | isDirty | residentLines => exact h

theorem Sound.performAll (calls : List Call) : (c.performAll calls).1.Sound := by
  induction calls generalizing c with
  | nil => exact h
  | cons call calls ih => exact ih (h.perform call)

/-- A run passes its checks: each call does, and the cache that it leaves is sound again. -/
theorem Sound.performAllChecked_eq (calls : List Call) :
    c.performAllChecked calls = .ok (c.performAll calls) := by
  induction calls generalizing c with
  | nil => rfl
  | cons call calls ih =>
    refine bind_eq_ok_iff.mpr ⟨_, h.performChecked_eq call, ?_⟩
    exact bind_eq_ok_iff.mpr ⟨_, ih (h.perform call), rfl⟩

end

/-! ## The conditions one by one -/

/-- The numbers of a cache stay within their bounds: the way that a missing line would go to, the
divisor of the random policy, the numbers that addresses are split with, and the products of the
shape. -/
structure InBounds (c : Cache) : Prop where
  way_lt : ∀ a, c.wayFor a < c.geometry.ways
  way_le : ∀ s, c.store = .map s → ∀ a, c.wayFor a ≤ s.lines.size
  divisor_ne : ∀ ways source, c.replacement = .random ways source → ways ≠ 0
  shift_lt : c.geometry.addresses.shift < 64
  one_le_lineBytes : 1 ≤ c.geometry.addresses.lineBytes
  lines_lt : c.geometry.sets * c.geometry.ways < 2 ^ 64
  place_lt : ∀ set < c.geometry.sets, ∀ way < c.geometry.ways,
    set * c.geometry.ways + way < 2 ^ 64
  capacity_lt : c.geometry.capacity < 2 ^ 64

theorem Sound.inBounds {c : Cache} (h : c.Sound) : c.InBounds where
  way_lt a := (h.offers_wayFor a).lt
  way_le s hstore a := by
    have hoffers := h.offers_wayFor a
    rw [hstore] at hoffers
    exact hoffers.2
  divisor_ne ways source hrandom := by
    have hfits := h.replacement
    rw [hrandom] at hfits
    obtain rfl : ways = c.geometry.ways := hfits
    exact h.valid.ways_pos.ne'
  shift_lt := h.valid.shift_lt
  one_le_lineBytes := h.valid.one_le_lineBytes
  lines_lt := h.valid.sets_mul_ways_lt
  place_lt _ hset _ hway := (slot_lt hset hway).trans h.valid.sets_mul_ways_lt
  capacity_lt := h.valid.capacity_lt

/-- **No call fails.**  The construction of a cache passes its checks, whichever of the ways to
build it is taken, and so does every run of requests and looks: it ends as the total operations say,
and all numbers stay within their bounds.  Room for the tables is not among these checks; a cache
that is called already has it. -/
theorem no_call_fails {c : Cache} (h : c.Built) (calls : List Call) :
    (∃ source, buildWith c.store.kind c.geometry c.name source = .ok c ∧
        freshChecked c.store.kind c.geometry c.name source = .ok c) ∧
      c.geometry.capacityChecked = .ok c.geometry.capacity ∧
      c.performAllChecked calls = .ok (c.performAll calls) ∧
      (c.performAll calls).1.InBounds := by
  refine ⟨?_, h.sound.valid.capacityChecked_eq, h.sound.performAllChecked_eq calls,
    (h.sound.performAll calls).inBounds⟩
  obtain ⟨kind, g, name, source, hvalid, -, rfl⟩ := h.exists_eq_fresh
  have hkind : (fresh kind g name source).store.kind = kind :=
    TagStore.kind_fresh kind g.sets g.ways
  rw [hkind]
  exact ⟨source, buildWith_of_valid kind name source hvalid,
    freshChecked_eq kind hvalid name source⟩

/-- A line so long that with twice its bytes it would be refused, which takes little room to keep.
The last byte of all addresses is written, and reading the first one sends the line back. -/
theorem no_call_fails_near_the_limit :
    let c := fresh .array ⟨1, 1, 2 ^ 63, .lru⟩ "F$" default
    let calls : List Call :=
      [.logMisses true, .access ⟨0xffffffffffffffff, 0xffffffffffffffff, true⟩,
        .isDirty 0x8000000000000000, .access ⟨0, 0, false⟩, .contains 0xffffffffffffffff,
        .residentLines]
    Cache.make .array ⟨1, 1, 2 ^ 63, .lru⟩ "F$" default = .ok c ∧
      c.geometry.capacity = 2 ^ 63 ∧ c.geometry.capacityChecked = .ok c.geometry.capacity ∧
      ∃ now, now.InBounds ∧ c.performAllChecked calls = .ok (now,
        [.done,
          .served (.miss 0 .empty) [.notice (.missed "F$" true 0xffffffffffffffff),
            .forward ⟨0x8000000000000000, 0x8000000000000000, false⟩],
          .dirtiness (some true),
          .served (.miss 0 ⟨1, true, true⟩) [.notice (.missed "F$" false 0),
            .notice (.wroteBack "F$" 0x8000000000000000),
            .forward ⟨0x8000000000000000, 0x8000000000000000, true⟩,
            .forward ⟨0, 0x8000000000000000, false⟩],
          .contained false, .lineCount 1]) := by
  intro c calls
  have hbuild : build ⟨1, 1, 2 ^ 63, .lru⟩ "F$" default = .ok c := rfl
  have hmake : Cache.make .array ⟨1, 1, 2 ^ 63, .lru⟩ "F$" default = .ok c :=
    make_eq_ok_iff.mpr ⟨hbuild, by decide⟩
  obtain ⟨-, hcapacity, hrun, hbounds⟩ := no_call_fails (.standard hbuild) calls
  refine ⟨hmake, by decide, hcapacity, _, hbounds, hrun.trans (congrArg Except.ok ?_)⟩
  refine Prod.ext rfl ?_
  decide

end Cache

end CacheModel

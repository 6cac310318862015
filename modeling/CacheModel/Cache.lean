import CacheModel.Counters
import CacheModel.Event
import CacheModel.TagStore

/-!
# One cache

A request either finds its line or brings it in.  On a hit the counters, the replacement state and
the dirty bit change and nothing leaves the cache.  On a miss the replacement state names a victim,
a dirty victim is written back, and the missing line is read from below; the writeback always goes
out before the read.

A cache does not call what lies below it.  `access` returns the cache after the request together
with the effects of the request in their order, and whoever holds the caches carries the effects
out.
-/

namespace CacheModel

/-- A cache: its name and shape, its lines, what it remembers for replacement, whether it reports
misses, and its counters. -/
structure Cache where
  name : String
  geometry : Geometry
  store : TagStore
  replacement : Replacement
  logsMisses : Bool
  counters : Counters

/-- What became of a request. -/
inductive Outcome where
  | hit (way : Nat)
  /-- The line was installed at `way`, over what stood there before. -/
  | miss (way : Nat) (replaced : Line)
  deriving Repr, DecidableEq

namespace Outcome

/-- Whether the line was found. -/
def isHit : Outcome → Bool
  | hit _ => true
  | miss _ _ => false

/-- The way that holds the line from now on. -/
def way : Outcome → Nat
  | hit way => way
  | miss way _ => way

end Outcome

/-- What a request causes outside the cache. -/
inductive Effect where
  | notice (event : Event)
  /-- A request to the next level. -/
  | forward (request : Request)
  deriving Repr, DecidableEq

/-- The result of one request: the cache after it, what became of it, and its effects in order. -/
structure Step where
  cache : Cache
  outcome : Outcome
  effects : List Effect

/-- How the lines of a cache of this shape are kept unless it is asked for otherwise. -/
def Geometry.storeKind (g : Geometry) : StoreKind :=
  if g.isFullyAssociative then .map else .array

namespace Cache

/-! ## Construction -/

/-- A cache without lines. -/
def fresh (kind : StoreKind) (geometry : Geometry) (name : String) (source : Source) : Cache :=
  { name
    geometry
    store := .fresh kind geometry.sets geometry.ways
    replacement := .fresh geometry.policy geometry.sets geometry.ways source
    logsMisses := false
    counters := .zero }

/-- A cache with the given kind of store, if its shape is possible. -/
def buildWith (kind : StoreKind) (geometry : Geometry) (name : String) (source : Source) :
    Except GeometryError Cache :=
  geometry.check.map fun geometry => fresh kind geometry name source

/-- A cache whose shape decides how its lines are kept. -/
def build (geometry : Geometry) (name : String) (source : Source) : Except GeometryError Cache :=
  buildWith geometry.storeKind geometry name source

/-- Whether the lines are searched through a map. -/
def isFullyAssociative (c : Cache) : Bool :=
  c.store.kind == .map

/-- The event that tells of the construction. -/
def builtEvent (c : Cache) : Event :=
  .built c.name c.geometry c.isFullyAssociative

/-! ## Looking without touching -/

/-- The set of an address. -/
def setOf (c : Cache) (address : UInt64) : Nat :=
  (c.geometry.addresses.decode address).1

/-- The tag of an address. -/
def tagOf (c : Cache) (address : UInt64) : UInt64 :=
  (c.geometry.addresses.decode address).2

/-- The way that holds the line of `address`. -/
def find (c : Cache) (address : UInt64) : Option Nat :=
  c.store.find (c.setOf address) (c.tagOf address)

/-- Whether the line of `address` is held. -/
def contains (c : Cache) (address : UInt64) : Bool :=
  (c.find address).isSome

/-- The dirty bit of the line of `address`, if it is held. -/
def isDirty (c : Cache) (address : UInt64) : Option Bool :=
  (c.find address).map fun way => (c.store.line (c.setOf address) way).dirty

/-- The number of lines held. -/
def residentLines (c : Cache) : Nat :=
  c.store.resident

/-! ## One request -/

/-- The size of a line as a word. -/
def lineBytes (c : Cache) : UInt64 :=
  c.geometry.lineBytes.toUInt64

/-- A request has arrived: time goes on and the access is counted. -/
def arrive (c : Cache) (r : Request) : Cache :=
  { c with replacement := c.replacement.tick, counters := c.counters.recordAccess r }

/-- Serves a hit at `way`. -/
def serve (c : Cache) (set way : Nat) (isWrite : Bool) : Cache :=
  { c with
    replacement := c.replacement.touch set way
    store := if isWrite then c.store.setDirty set way true else c.store }

/-- The request that writes a replaced line back; none unless the line was there and dirty. -/
def writeback? (c : Cache) (replaced : Line) : Option Request :=
  if replaced.valid && replaced.dirty then
    some { address := c.geometry.addresses.lineAddress replaced.tag
           bytes := c.lineBytes
           isWrite := true }
  else none

/-- The request that reads the line of `address`. -/
def fillRequest (c : Cache) (address : UInt64) : Request :=
  { address := c.geometry.addresses.lineBase address, bytes := c.lineBytes, isWrite := false }

/-- Chooses a way of `set`, installs the line `tag` there and counts the miss.  The way and what
stood there before are returned too. -/
def fill (c : Cache) (set : Nat) (tag : UInt64) (isWrite : Bool) : Nat × Line × Cache :=
  let (way, replacement) := c.store.victimize set c.replacement
  let (replaced, store) := c.store.install set way tag
  let counters := c.counters.recordMiss isWrite
  (way, replaced,
    { c with
      store := if isWrite then store.setDirty set way true else store
      replacement := replacement.install set way
      counters := if (c.writeback? replaced).isSome then counters.recordWriteback else counters })

/-- The effects of a miss, in order: the report if misses are reported, the writeback of the
replaced line if it needs one, and the read of the missing line. -/
def missEffects (c : Cache) (r : Request) (replaced : Line) : List Effect :=
  (if c.logsMisses then [.notice (.missed c.name r.isWrite r.address)] else []) ++
    (match c.writeback? replaced with
      | some request => [.notice (.wroteBack c.name request.address), .forward request]
      | none => []) ++
    [.forward (c.fillRequest r.address)]

/-- Serves one request. -/
def access (c : Cache) (r : Request) : Step :=
  let arrived := c.arrive r
  let set := c.setOf r.address
  match c.find r.address with
  | some way =>
    { cache := arrived.serve set way r.isWrite, outcome := .hit way, effects := [] }
  | none =>
    let (way, replaced, cache) := arrived.fill set (c.tagOf r.address) r.isWrite
    { cache, outcome := .miss way replaced, effects := c.missEffects r replaced }

/-- The cache after a run of requests, whatever becomes of their effects. -/
def after (c : Cache) (requests : List Request) : Cache :=
  requests.foldl (fun c r => (c.access r).cache) c

@[simp] theorem after_nil (c : Cache) : c.after [] = c := rfl

@[simp] theorem after_cons (c : Cache) (r : Request) (rs : List Request) :
    c.after (r :: rs) = (c.access r).cache.after rs := rfl

theorem after_append (c : Cache) (rs ss : List Request) :
    c.after (rs ++ ss) = (c.after rs).after ss := by
  simp [after]

theorem access_of_hit {c : Cache} {r : Request} {way : Nat} (h : c.find r.address = some way) :
    c.access r =
      { cache := (c.arrive r).serve (c.setOf r.address) way r.isWrite
        outcome := .hit way
        effects := [] } := by
  simp [access, h]

@[simp] theorem name_access (c : Cache) (r : Request) : (c.access r).cache.name = c.name := by
  unfold access
  cases c.find r.address <;> rfl

@[simp] theorem geometry_access (c : Cache) (r : Request) :
    (c.access r).cache.geometry = c.geometry := by
  unfold access
  cases c.find r.address <;> rfl

@[simp] theorem logsMisses_access (c : Cache) (r : Request) :
    (c.access r).cache.logsMisses = c.logsMisses := by
  unfold access
  cases c.find r.address <;> rfl

end Cache

end CacheModel

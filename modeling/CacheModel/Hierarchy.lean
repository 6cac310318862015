import CacheModel.Description
import CacheModel.Report
import CacheModel.Storage
import CacheModel.Tracer

/-!
# The usual hierarchy

An instruction cache and a data cache stand side by side, and a second level, if there is one,
serves the misses of both.  Fetches go to the instruction cache, loads and stores to the data
cache; a reference whose cache is missing goes nowhere.

The levels of the network stand in the order instruction cache, data cache, second level, and the
ones that are left out take no place.
-/

namespace CacheModel

/-- The name of the instruction cache. -/
def icacheName : String := "I$"

/-- The name of the data cache. -/
def dcacheName : String := "D$"

/-- The name of the second level. -/
def l2Name : String := "L2$"

/-- A network with the places of its levels, if they are there. -/
structure Hierarchy where
  network : Network
  icache : Option Nat
  dcache : Option Nat
  l2 : Option Nat

namespace Hierarchy

/-! ## Construction -/

/-- The cache of a level, if the level is described. -/
def buildLevel (geometry : Option Geometry) (name : String) (logsMisses : Bool) :
    Except GeometryError (Option Cache) :=
  match geometry with
  | none => .ok none
  | some geometry => do
    let cache ← Cache.build geometry name default
    return some { cache with logsMisses }

/-- Puts the caches of the levels together. -/
def assemble (icache dcache l2 : Option Cache) : Hierarchy :=
  let upper := icache.toList ++ dcache.toList
  let link := l2.map fun _ => Link.level upper.length
  { network :=
      { levels := (upper.map (fun cache => Level.mk cache link) ++
          l2.toList.map (fun cache => Level.mk cache none)).toArray }
    icache := icache.map fun _ => 0
    dcache := dcache.map fun _ => icache.toList.length
    l2 := l2.map fun _ => upper.length }

/-- The hierarchy of a description, whatever room its tables take.  The levels are built in the
order in which they stand. -/
def build (d : Description) : Except GeometryError Hierarchy := do
  let icache ← buildLevel d.icache icacheName d.logMisses
  let dcache ← buildLevel d.dcache dcacheName d.logMisses
  let l2 ← buildLevel d.l2 l2Name d.logMisses
  return assemble icache dcache l2

/-- What keeps a level from being made, if it is described. -/
def obstacle? (level : Option Geometry) : Option Obstacle :=
  level.bind fun geometry => geometry.obstacle? geometry.storeKind

/-- The hierarchy of a description, if all of its levels can be made. -/
def make (d : Description) : Except Obstacle Hierarchy :=
  match [d.icache, d.dcache, d.l2].findSome? obstacle? with
  | some obstacle => .error obstacle
  | none => (build d).mapError .refused

/-- The events of the levels that are made before the first one that cannot be made. -/
def eventsBeforeObstacle (d : Description) : List Event :=
  let levels := [(icacheName, d.icache), (dcacheName, d.dcache), (l2Name, d.l2)]
  (levels.takeWhile fun (_, level) => (obstacle? level).isNone).filterMap fun (name, level) =>
    level.map fun geometry => .built name geometry geometry.isFullyAssociative

/-- The caches, in order. -/
def caches (h : Hierarchy) : List Cache :=
  h.network.caches

/-- The events that tell of the construction: each cache, then each connection. -/
def builtEvents (h : Hierarchy) : List Event :=
  h.caches.map Cache.builtEvent ++
    match h.l2 with
    | none => []
    | some lower => (h.caches.take lower).map fun cache => .attached cache.name l2Name

/-! ## References -/

/-- Who looks at the references. -/
def tracers (h : Hierarchy) : List Tracer :=
  h.icache.toList.map .fetches ++ h.dcache.toList.map .data

/-- Serves one reference. -/
def access (h : Hierarchy) (a : Access) : Hierarchy × List Occurrence :=
  let (network, log) := h.network.trace (.list h.tracers) a
  ({ h with network }, log)

/-- Serves references in order; the account of all of them is returned too. -/
def run (h : Hierarchy) (accesses : List Access) : Hierarchy × Array Occurrence :=
  accesses.foldl (fun (h, log) a =>
    let (h, more) := h.access a
    (h, log ++ more)) (h, #[])

/-! ## Reports -/

/-- The reports of all levels. -/
def reports (h : Hierarchy) : List Report :=
  h.caches.map Cache.report

/-- The texts of the levels that were accessed. -/
def reportText (h : Hierarchy) : String :=
  String.join (h.reports.filterMap Report.text?)

end Hierarchy

end CacheModel

import CacheModel.Cache

/-!
# Room for a cache

A cache is made with all of its tables: one for its lines, for a map another one that finds their
places, and for an ordered policy one for its stamps.  The size of an object fits a signed word, and
a program that asks for a longer table ends on the spot.

The shape of a cache is judged by the bytes that the cache would hold, not by those that are needed
to keep account of its lines.  So a shape can pass its judgement and still ask for a table that is
too long.  How much memory there is at the time is not considered: a table that is not too long is
made.
-/

namespace CacheModel

/-- No object is longer than this many bytes. -/
def maxBytes : Nat := 0x7fffffffffffffff

/-- A line takes a word for its tag, and its two marks take another one. -/
def lineRecordBytes : Nat := 16

/-- A stamp takes a word. -/
def stampBytes : Nat := 8

/-- The places of an index that has to take so many tags: a power of two of which at least one
place in eight stays free. -/
def indexPlaces (tags : Nat) : Nat :=
  if tags < 4 then 4
  else if tags < 8 then 8
  else Nat.pow 2 ((tags * 8 / 7 - 1).log2 + 1)

/-- Each place of an index has an entry of two words and one byte that tells whether it is taken,
and behind these bytes stand sixteen more. -/
def indexBytes (tags : Nat) : Nat :=
  indexPlaces tags * 17 + 16

/-- The sizes of the tables of a store. -/
def TagStore.tableBytes (kind : StoreKind) (sets ways : Nat) : List Nat :=
  match kind with
  | .array => [sets * ways * lineRecordBytes]
  | .map => [indexBytes ways, ways * lineRecordBytes]

/-- The sizes of the tables of a replacement state. -/
def Replacement.tableBytes (policy : Policy) (sets ways : Nat) : List Nat :=
  if policy.isStamped then [sets * ways * stampBytes] else []

/-- Whether tables of these sizes can be made. -/
def canBeMade (tableBytes : List Nat) : Bool :=
  tableBytes.all (· ≤ maxBytes)

/-- What keeps a cache from being made. -/
inductive Obstacle where
  | refused (error : GeometryError)
  /-- A table would be longer than any object. -/
  | capacityOverflow
  deriving Repr, DecidableEq

namespace Geometry

/-- Whether the tables of a cache of this shape can be made. -/
def fits (kind : StoreKind) (g : Geometry) : Bool :=
  canBeMade (TagStore.tableBytes kind g.sets g.ways ++
    Replacement.tableBytes g.policy g.sets g.ways)

/-- What keeps a cache of this shape from being made, if anything does.  The shape is judged
first. -/
def obstacle? (kind : StoreKind) (g : Geometry) : Option Obstacle :=
  match g.fault? with
  | some error => some (.refused error)
  | none => if g.fits kind then none else some .capacityOverflow

end Geometry

/-- A cache with the given kind of store, if it can be made. -/
def Cache.make (kind : StoreKind) (geometry : Geometry) (name : String) (source : Source) :
    Except Obstacle Cache :=
  match geometry.obstacle? kind with
  | some obstacle => .error obstacle
  | none => (buildWith kind geometry name source).mapError .refused

end CacheModel

import CacheModel.Line

/-!
# Counters of a cache

Seven counters of 64 bits, which wrap.  What is derived from them (totals, hits, miss rate) wraps
in the same way.
-/

namespace CacheModel

/-- What a cache counts. -/
structure Counters where
  bytesRead : UInt64
  bytesWritten : UInt64
  readAccesses : UInt64
  writeAccesses : UInt64
  readMisses : UInt64
  writeMisses : UInt64
  /-- Dirty lines that were replaced. -/
  writebacks : UInt64
  deriving Repr, DecidableEq

namespace Counters

/-- Nothing has been counted. -/
def zero : Counters :=
  { bytesRead := 0, bytesWritten := 0, readAccesses := 0, writeAccesses := 0, readMisses := 0,
    writeMisses := 0, writebacks := 0 }

/-- Counts the arrival of a request. -/
def recordAccess (c : Counters) (r : Request) : Counters :=
  if r.isWrite then
    { c with writeAccesses := c.writeAccesses + 1, bytesWritten := c.bytesWritten + r.bytes }
  else
    { c with readAccesses := c.readAccesses + 1, bytesRead := c.bytesRead + r.bytes }

/-- Counts a miss. -/
def recordMiss (c : Counters) (isWrite : Bool) : Counters :=
  if isWrite then { c with writeMisses := c.writeMisses + 1 }
  else { c with readMisses := c.readMisses + 1 }

/-- Counts a writeback. -/
def recordWriteback (c : Counters) : Counters :=
  { c with writebacks := c.writebacks + 1 }

/-- All accesses. -/
def accesses (c : Counters) : UInt64 :=
  c.readAccesses + c.writeAccesses

/-- All misses. -/
def misses (c : Counters) : UInt64 :=
  c.readMisses + c.writeMisses

/-- The accesses that did not miss. -/
def hits (c : Counters) : UInt64 :=
  c.accesses - c.misses

/-- The share of misses in all accesses, in percent; none before the first access. -/
def missRate? (c : Counters) : Option Float :=
  if c.accesses = 0 then none else some (100.0 * c.misses.toFloat / c.accesses.toFloat)

theorem missRate?_eq_none_iff {c : Counters} : c.missRate? = none ↔ c.accesses = 0 := by
  unfold missRate?
  split <;> simp_all

end Counters

end CacheModel

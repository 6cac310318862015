import CacheModel.Replacement

/-!
# Tag store as a fixed array

All places exist from the start, the sets one after another, and a set is searched way by way.
-/

namespace CacheModel

/-- The lines of every set, in one array. -/
structure ArrayStore where
  lines : Array Line
  ways : Nat
  deriving Repr, DecidableEq

namespace ArrayStore

/-- All places empty, whatever room they take: that is asked for before a store is made. -/
def fresh (sets ways : Nat) : ArrayStore :=
  { lines := Array.replicate (sets * ways) Line.empty, ways }

/-- Where a way of a set lies in the array. -/
def slot (s : ArrayStore) (set way : Nat) : Nat :=
  set * s.ways + way

/-- The place at a way of a set. -/
def line (s : ArrayStore) (set way : Nat) : Line :=
  s.lines.getD (s.slot set way) Line.empty

/-- The places of a set, in order. -/
def setLines (s : ArrayStore) (set : Nat) : List Line :=
  (List.range s.ways).map (s.line set)

/-- Puts `line` at a way of a set. -/
def put (s : ArrayStore) (set way : Nat) (line : Line) : ArrayStore :=
  { s with lines := s.lines.setIfInBounds (s.slot set way) line }

/-- The first way of the set that holds the line with the given tag. -/
def find (s : ArrayStore) (set : Nat) (tag : UInt64) : Option Nat :=
  (s.setLines set).findIdx? (fun line => line.holds tag)

/-- The number of places that hold a line. -/
def resident (s : ArrayStore) : Nat :=
  s.lines.countP Line.valid

@[simp] theorem ways_put (s : ArrayStore) (set way : Nat) (line : Line) :
    (s.put set way line).ways = s.ways := rfl

@[simp] theorem length_setLines (s : ArrayStore) (set : Nat) :
    (s.setLines set).length = s.ways := by
  simp [setLines]

@[simp] theorem size_put (s : ArrayStore) (set way : Nat) (line : Line) :
    (s.put set way line).lines.size = s.lines.size := by
  simp [put]

/-- A place inside the array holds what was put there. -/
theorem line_put_self (s : ArrayStore) {set way : Nat} (line : Line)
    (h : s.slot set way < s.lines.size) : (s.put set way line).line set way = line := by
  simp [ArrayStore.line, put, show set * s.ways + way < s.lines.size from h, slot]

/-- Every other place keeps its line. -/
theorem line_put_of_ne (s : ArrayStore) {set way otherSet otherWay : Nat} (line : Line)
    (h : s.slot otherSet otherWay ≠ s.slot set way) :
    (s.put set way line).line otherSet otherWay = s.line otherSet otherWay := by
  have hslot : set * s.ways + way ≠ otherSet * s.ways + otherWay := fun heq => h heq.symm
  simp [ArrayStore.line, put, slot, Array.getElem?_setIfInBounds_ne hslot]

end ArrayStore

end CacheModel

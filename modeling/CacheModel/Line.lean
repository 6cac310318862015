/-!
# Lines and requests

No data is kept: a line is known by its tag, by whether its place holds a line at all, and by
whether it was written since it came in.
-/

namespace CacheModel

/-- One place for a line in a cache. -/
structure Line where
  tag : UInt64
  /-- The place holds a line. -/
  valid : Bool
  /-- The line was written since it was installed. -/
  dirty : Bool
  deriving Repr, DecidableEq, Inhabited

namespace Line

/-- A place that holds no line. -/
def empty : Line :=
  { tag := 0, valid := false, dirty := false }

/-- A line that has just come in. -/
def fresh (tag : UInt64) : Line :=
  { tag, valid := true, dirty := false }

/-- Whether this place holds the line with the given tag. -/
def holds (line : Line) (tag : UInt64) : Bool :=
  line.valid && line.tag == tag

@[simp] theorem holds_empty (tag : UInt64) : empty.holds tag = false := rfl

@[simp] theorem holds_fresh (tag other : UInt64) : (fresh tag).holds other = (tag == other) := by
  simp [holds, fresh]

end Line

/-- One reference to some bytes.  The size enters the counters only: a request touches the line
that holds its first byte. -/
structure Request where
  address : UInt64
  bytes : UInt64
  isWrite : Bool
  deriving Repr, DecidableEq

end CacheModel

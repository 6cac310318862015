import CacheModel.Line
import CacheModel.Policy
import CacheModel.Replacement.Source

/-!
# Replacement state

A cache drives its replacement state through each access: `tick` once, then `touch` on a hit, or
`victim` and `install` on a miss.  The ordered policies keep one clock for the whole cache and one
stamp for every way, so that stamps of different sets can be compared; they differ only in that a
hit renews the stamp under LRU and leaves it alone under FIFO.
-/

namespace CacheModel

/-- A clock and one stamp per way, all sets one after another. -/
structure Stamps where
  stamps : Array UInt64
  ways : Nat
  clock : UInt64
  deriving Repr, DecidableEq

namespace Stamps

/-- No way has been stamped yet.  The room for the stamps is asked for before. -/
def fresh (sets ways : Nat) : Stamps :=
  { stamps := Array.replicate (sets * ways) 0, ways, clock := 0 }

/-- One more access has been made. -/
def tick (s : Stamps) : Stamps :=
  { s with clock := s.clock + 1 }

/-- Where the stamp of a way lies in the array. -/
def slot (s : Stamps) (set way : Nat) : Nat :=
  set * s.ways + way

/-- The stamp of a way. -/
def stamp (s : Stamps) (set way : Nat) : UInt64 :=
  s.stamps.getD (s.slot set way) 0

/-- Stamps a way with the present time. -/
def mark (s : Stamps) (set way : Nat) : Stamps :=
  { s with stamps := s.stamps.setIfInBounds (s.slot set way) s.clock }

/-- The stamps of the first `count` ways of a set. -/
def ofSet (s : Stamps) (set count : Nat) : List UInt64 :=
  (List.range count).map (s.stamp set)

/-- The first place where the least of the given numbers stands; zero if there is none. -/
def firstLeast (ns : List Nat) : Nat :=
  match ns.min? with
  | some least => ns.idxOf least
  | none => 0

/-- The way to replace: the first empty one, otherwise the first of those with the least stamp. -/
def victim (s : Stamps) (set : Nat) (lines : List Line) : Nat :=
  match lines.findIdx? (fun line => !line.valid) with
  | some way => way
  | none => firstLeast ((s.ofSet set lines.length).map UInt64.toNat)

@[simp] theorem ways_tick (s : Stamps) : s.tick.ways = s.ways := rfl

@[simp] theorem stamp_tick (s : Stamps) (set way : Nat) :
    s.tick.stamp set way = s.stamp set way := rfl

@[simp] theorem clock_mark (s : Stamps) (set way : Nat) : (s.mark set way).clock = s.clock := rfl

/-- A way inside the array that is marked carries the present time. -/
theorem stamp_mark_self (s : Stamps) {set way : Nat} (h : s.slot set way < s.stamps.size) :
    (s.mark set way).stamp set way = s.clock := by
  simp [stamp, mark, show set * s.ways + way < s.stamps.size from h, slot]

/-- Every other way keeps its stamp. -/
theorem stamp_mark_of_ne (s : Stamps) {set way otherSet otherWay : Nat}
    (h : s.slot otherSet otherWay ≠ s.slot set way) :
    (s.mark set way).stamp otherSet otherWay = s.stamp otherSet otherWay := by
  have hslot : set * s.ways + way ≠ otherSet * s.ways + otherWay := fun heq => h heq.symm
  simp [stamp, mark, slot, Array.getElem?_setIfInBounds_ne hslot]

end Stamps

/-- What a cache remembers in order to choose victims. -/
inductive Replacement where
  | random (ways : Nat) (source : Source)
  | lru (stamps : Stamps)
  | fifo (stamps : Stamps)

namespace Replacement

/-- The state before the first access.  Only the random policy draws from `source`. -/
def fresh (policy : Policy) (sets ways : Nat) (source : Source) : Replacement :=
  match policy with
  | .random => random ways source
  | .lru => lru (.fresh sets ways)
  | .fifo => fifo (.fresh sets ways)

/-- The policy that this state serves. -/
def policy : Replacement → Policy
  | random _ _ => .random
  | lru _ => .lru
  | fifo _ => .fifo

/-- The clock and stamps, if the policy keeps any. -/
def stamps? : Replacement → Option Stamps
  | random _ _ => none
  | lru s => some s
  | fifo s => some s

/-- One more access begins. -/
def tick : Replacement → Replacement
  | random ways source => random ways source
  | lru s => lru s.tick
  | fifo s => fifo s.tick

/-- A line was hit.  Only LRU takes note. -/
def touch (set way : Nat) : Replacement → Replacement
  | random ways source => random ways source
  | lru s => lru (s.mark set way)
  | fifo s => fifo s

/-- A line was installed. -/
def install (set way : Nat) : Replacement → Replacement
  | random ways source => random ways source
  | lru s => lru (s.mark set way)
  | fifo s => fifo (s.mark set way)

/-- The way of `set` to replace, given the lines of the set.  The random policy spends one draw
and does not look at the lines. -/
def victim (set : Nat) (lines : List Line) : Replacement → Nat × Replacement
  | random ways source => (source.next.1.toNat % ways, random ways source.next.2)
  | lru s => (s.victim set lines, lru s)
  | fifo s => (s.victim set lines, fifo s)

/-- How many draws of a fixed stream are spent. -/
def drawsTaken : Replacement → Nat
  | random _ source => source.taken
  | lru _ => 0
  | fifo _ => 0

@[simp] theorem policy_fresh (policy : Policy) (sets ways : Nat) (source : Source) :
    (fresh policy sets ways source).policy = policy := by
  cases policy <;> rfl

@[simp] theorem policy_tick (r : Replacement) : r.tick.policy = r.policy := by
  cases r <;> rfl

@[simp] theorem policy_touch (r : Replacement) (set way : Nat) :
    (r.touch set way).policy = r.policy := by
  cases r <;> rfl

@[simp] theorem policy_install (r : Replacement) (set way : Nat) :
    (r.install set way).policy = r.policy := by
  cases r <;> rfl

@[simp] theorem policy_victim (r : Replacement) (set : Nat) (lines : List Line) :
    (r.victim set lines).2.policy = r.policy := by
  cases r <;> rfl

end Replacement

end CacheModel

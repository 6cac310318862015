import CacheModel.TagStore.Array
import CacheModel.TagStore.Map

/-!
# Tag stores

A cache keeps its lines either in a fixed array of places or, when it is a single large set, in
places that are added on demand and searched through a map.  Both leave the choice of a victim to
the replacement state; the second one asks for it only once all places are taken.
-/

namespace CacheModel

/-- The two ways to keep lines. -/
inductive StoreKind where
  | array
  | map
  deriving Repr, DecidableEq

/-- The lines of one cache. -/
inductive TagStore where
  | array (store : ArrayStore)
  | map (store : MapStore)
  deriving Repr, DecidableEq

namespace TagStore

/-- A store without lines.  The map store has a single set. -/
def fresh (kind : StoreKind) (sets ways : Nat) : TagStore :=
  match kind with
  | .array => array (.fresh sets ways)
  | .map => map (.fresh ways)

/-- How the lines are kept. -/
def kind : TagStore → StoreKind
  | array _ => .array
  | map _ => .map

/-- The way of `set` that holds the line with the given tag. -/
def find (set : Nat) (tag : UInt64) : TagStore → Option Nat
  | array s => s.find set tag
  | map s => s.find tag

/-- The line at a way of a set. -/
def line (set way : Nat) : TagStore → Line
  | array s => s.line set way
  | map s => s.line way

/-- Puts `line` at a way of a set. -/
def put (set way : Nat) (line : Line) : TagStore → TagStore
  | array s => array (s.put set way line)
  | map s => map (s.put way line)

/-- Sets the dirty bit at a way of a set. -/
def setDirty (set way : Nat) (dirty : Bool) (s : TagStore) : TagStore :=
  s.put set way { s.line set way with dirty }

/-- The way of `set` that a missing line goes to, and the replacement state after the choice.  A
map store that still has room takes its next place and leaves the replacement state alone. -/
def victimize (set : Nat) (replacement : Replacement) : TagStore → Nat × Replacement
  | array s => replacement.victim set (s.setLines set)
  | map s =>
    if s.isFull then replacement.victim 0 s.lines.toList else (s.lines.size, replacement)

/-- Installs a line at a way of a set; the line that was there is returned too. -/
def install (set way : Nat) (tag : UInt64) : TagStore → Line × TagStore
  | array s => (s.line set way, array (s.put set way (Line.fresh tag)))
  | map s => ((s.install way tag).1, map (s.install way tag).2)

/-- The number of lines held. -/
def resident : TagStore → Nat
  | array s => s.resident
  | map s => s.resident

@[simp] theorem kind_fresh (kind : StoreKind) (sets ways : Nat) :
    (fresh kind sets ways).kind = kind := by
  cases kind <;> rfl

@[simp] theorem kind_put (s : TagStore) (set way : Nat) (line : Line) :
    (s.put set way line).kind = s.kind := by
  cases s <;> rfl

@[simp] theorem kind_setDirty (s : TagStore) (set way : Nat) (dirty : Bool) :
    (s.setDirty set way dirty).kind = s.kind := by
  simp [setDirty]

@[simp] theorem kind_install (s : TagStore) (set way : Nat) (tag : UInt64) :
    (s.install set way tag).2.kind = s.kind := by
  cases s <;> rfl

end TagStore

end CacheModel

import CacheModel.Replacement

/-!
# Tag store searched through a map

The store of a cache with a single set.  Lines are added in the order in which they come until
`ways` lines are there; from then on each new line takes the place of an old one.  A map from tags
to places answers searches, and the number of its entries is the number of resident lines.
-/

namespace CacheModel

/-- A finite map from tags to places, each tag at most once. -/
abbrev TagIndex := List (UInt64 × Nat)

namespace TagIndex

/-- The place of a tag. -/
def find (index : TagIndex) (tag : UInt64) : Option Nat :=
  index.lookup tag

/-- The map without `tag`. -/
def erase (index : TagIndex) (tag : UInt64) : TagIndex :=
  index.filter (fun entry => !(entry.1 == tag))

/-- The map that sends `tag` to `place` and agrees with `index` on all other tags. -/
def insert (index : TagIndex) (tag : UInt64) (place : Nat) : TagIndex :=
  (tag, place) :: index.erase tag

theorem find_erase_self (index : TagIndex) (tag : UInt64) : (index.erase tag).find tag = none := by
  refine List.lookup_eq_none_iff.mpr fun entry h => ?_
  have hne := (List.mem_filter.mp h).2
  rw [Bool.not_eq_true', beq_eq_false_iff_ne] at hne
  exact bne_iff_ne.mpr hne.symm

theorem find_erase_of_ne (index : TagIndex) {tag other : UInt64} (h : other ≠ tag) :
    (index.erase tag).find other = index.find other := by
  induction index with
  | nil => rfl
  | cons entry rest ih =>
    obtain ⟨key, place⟩ := entry
    have ih' : List.lookup other (List.filter (fun entry => !entry.1 == tag) rest) =
        List.lookup other rest := ih
    by_cases hkey : key = tag
    · have hne : (other == key) = false := beq_eq_false_iff_ne.mpr (hkey ▸ h)
      simp [find, erase, hkey, List.lookup_cons, ih', hkey ▸ hne]
    · simp [find, erase, hkey, List.lookup_cons, ih']

@[simp] theorem find_insert_self (index : TagIndex) (tag : UInt64) (place : Nat) :
    (index.insert tag place).find tag = some place := by
  simp [find, insert]

theorem find_insert_of_ne (index : TagIndex) {tag other : UInt64} (place : Nat)
    (h : other ≠ tag) :
    (index.insert tag place).find other = index.find other := by
  have hne : (other == tag) = false := beq_eq_false_iff_ne.mpr h
  have hrest := find_erase_of_ne index h
  simp only [find, insert, List.lookup_cons, hne] at hrest ⊢
  exact hrest

end TagIndex

/-- The lines of a single set with a map from tags to places. -/
structure MapStore where
  index : TagIndex
  lines : Array Line
  ways : Nat
  deriving Repr, DecidableEq

namespace MapStore

/-- No line has come in yet.  The room for all lines and their index is asked for before. -/
def fresh (ways : Nat) : MapStore :=
  { index := [], lines := #[], ways }

/-- The line at a place. -/
def line (s : MapStore) (way : Nat) : Line :=
  s.lines.getD way Line.empty

/-- Puts `line` at a place that is there already. -/
def put (s : MapStore) (way : Nat) (line : Line) : MapStore :=
  { s with lines := s.lines.setIfInBounds way line }

/-- The place of the line with the given tag. -/
def find (s : MapStore) (tag : UInt64) : Option Nat :=
  s.index.find tag

/-- Whether no further place can be added. -/
def isFull (s : MapStore) : Bool :=
  decide (s.ways ≤ s.lines.size)

/-- Installs a line at the next place, or over the line that stands at `way`.  The tag of a line
that is replaced leaves the map before the new tag enters it.  The old line is returned too. -/
def install (s : MapStore) (way : Nat) (tag : UInt64) : Line × MapStore :=
  if way = s.lines.size then
    (Line.empty, { s with lines := s.lines.push (Line.fresh tag), index := s.index.insert tag way })
  else
    let old := s.line way
    let index := if old.valid then s.index.erase old.tag else s.index
    (old, { s.put way (Line.fresh tag) with index := index.insert tag way })

/-- The number of tags in the map. -/
def resident (s : MapStore) : Nat :=
  s.index.length

theorem line_put_self (s : MapStore) {way : Nat} (line : Line) (h : way < s.lines.size) :
    (s.put way line).line way = line := by
  simp [MapStore.line, put, h]

theorem line_put_of_ne (s : MapStore) {way other : Nat} (line : Line) (h : other ≠ way) :
    (s.put way line).line other = s.line other := by
  simp [MapStore.line, put, Array.getElem?_setIfInBounds_ne h.symm]

@[simp] theorem find_install (s : MapStore) (way : Nat) (tag : UInt64) :
    (s.install way tag).2.find tag = some way := by
  unfold install find
  split <;> simp

end MapStore

end CacheModel

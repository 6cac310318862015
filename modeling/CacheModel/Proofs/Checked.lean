import CacheModel.Proofs.Soundness
import CacheModel.Proofs.Stages

/-!
# Operations with their checks

The operations of a cache are total: a place outside an array reads as an empty one, and numbers
grow as they need to.  On a machine each step is of use only under a condition.  An index or a slice
has to lie inside its array, sums and products have to fit a word of 64 bits, a difference must not
fall below zero, a shift must not be as wide as the word, and a divisor must not be zero.

Here every operation stands with these checks, each at the step that needs it, and a check that
fails ends the operation.  Where no check fails the outcome is the one of the total operation.
There is one lemma for each operation, and its hypotheses are what the operation relies on.

Two things are left out.  The clock of the stamps and the counters come round when they pass the
largest word; they are words in the total operations as well, and their additions have no check.
And no operation asks whether its tables can be had: the room for a new cache is asked for apart
from the other conditions, by `Geometry.fits`.
-/

namespace CacheModel

/-- The check that failed. -/
inductive Mishap where
  | outOfRange
  | overflow
  | underflow
  | wideShift
  | zeroDivisor
  deriving Repr, DecidableEq

/-! ## Single steps -/

namespace Checked

def add (a b : ℕ) : Except Mishap ℕ :=
  if a + b < Text.wordLimit then .ok (a + b) else .error .overflow

def mul (a b : ℕ) : Except Mishap ℕ :=
  if a * b < Text.wordLimit then .ok (a * b) else .error .overflow

def rem (a b : ℕ) : Except Mishap ℕ :=
  if b = 0 then .error .zeroDivisor else .ok (a % b)

def sub (a b : UInt64) : Except Mishap UInt64 :=
  if b ≤ a then .ok (a - b) else .error .underflow

def shiftLeft (a : UInt64) (width : ℕ) : Except Mishap UInt64 :=
  if width < 64 then .ok (a <<< width.toUInt64) else .error .wideShift

def shiftRight (a : UInt64) (width : ℕ) : Except Mishap UInt64 :=
  if width < 64 then .ok (a >>> width.toUInt64) else .error .wideShift

section

variable {α : Type}

def get (xs : Array α) (i : ℕ) : Except Mishap α :=
  match xs[i]? with
  | some a => .ok a
  | none => .error .outOfRange

def set (xs : Array α) (i : ℕ) (a : α) : Except Mishap (Array α) :=
  if i < xs.size then .ok (xs.setIfInBounds i a) else .error .outOfRange

/-- The `count` places from `start` on. -/
def slice (xs : Array α) (start count : ℕ) : Except Mishap (Array α) := do
  let stop ← add start count
  if stop ≤ xs.size then .ok (xs.extract start stop) else .error .outOfRange

end

/-- The place of a way of a set, where the sets stand one after another. -/
def slot (ways set way : ℕ) : Except Mishap ℕ := do
  let base ← mul set ways
  add base way

section

variable {α : Type} {xs : Array α} {i start count : ℕ}

theorem add_eq {a b : ℕ} (h : a + b < Text.wordLimit) : add a b = .ok (a + b) := if_pos h

theorem mul_eq {a b : ℕ} (h : a * b < Text.wordLimit) : mul a b = .ok (a * b) := if_pos h

theorem get_eq (h : i < xs.size) (a : α) : get xs i = .ok (xs.getD i a) := by
  simp [get, h]

theorem set_eq (h : i < xs.size) (a : α) : set xs i a = .ok (xs.setIfInBounds i a) := if_pos h

theorem slice_eq (h : start + count ≤ xs.size) (hsize : xs.size < Text.wordLimit) :
    slice xs start count = .ok (xs.extract start (start + count)) := by
  rw [slice, add_eq (h.trans_lt hsize)]
  exact if_pos h

/-- The places of a slice, one by one. -/
theorem toList_extract (h : start + count ≤ xs.size) (a : α) :
    (xs.extract start (start + count)).toList =
      (List.range count).map fun i => xs.getD (start + i) a := by
  have hlength : (xs.extract start (start + count)).size = count := by
    simp only [Array.size_extract]
    omega
  apply List.ext_getElem
  · rw [Array.length_toList, hlength, List.length_map, List.length_range]
  · intro i hi hi'
    have hlt : start + i < xs.size := by
      rw [Array.length_toList, hlength] at hi
      omega
    simp [hlt]

variable {sets ways set way : ℕ}

theorem mul_set_eq (hfits : sets * ways < Text.wordLimit) (hset : set < sets) :
    mul set ways = .ok (set * ways) :=
  mul_eq ((Nat.mul_le_mul_right ways hset.le).trans_lt hfits)

theorem slot_eq (hfits : sets * ways < Text.wordLimit) (hset : set < sets) (hway : way < ways) :
    slot ways set way = .ok (set * ways + way) := by
  rw [slot, mul_set_eq hfits hset]
  exact add_eq ((slot_lt hset hway).trans hfits)

/-- A set lies inside an array of all sets. -/
theorem base_add_le (hset : set < sets) : set * ways + ways ≤ sets * ways := by
  rw [← Nat.succ_mul]
  exact Nat.mul_le_mul_right ways hset

end

end Checked

/-! ## Addresses -/

namespace AddressMap

/-- The set and the tag of an address. -/
def decodeChecked (m : AddressMap) (address : UInt64) : Except Mishap (ℕ × UInt64) := do
  let tag ← Checked.shiftRight address m.shift
  return (m.setOfTag tag, tag)

/-- The first byte of the line that holds `address`. -/
def lineBaseChecked (m : AddressMap) (address : UInt64) : Except Mishap UInt64 := do
  let offsets ← Checked.sub m.lineBytes 1
  return address &&& ~~~offsets

/-- The first byte of the line with the given tag. -/
def lineAddressChecked (m : AddressMap) (tag : UInt64) : Except Mishap UInt64 :=
  Checked.shiftLeft tag m.shift

end AddressMap

namespace Geometry

/-- The number of bytes that the cache can hold. -/
def capacityChecked (g : Geometry) : Except Mishap ℕ := do
  let lines ← Checked.mul g.sets g.ways
  Checked.mul lines g.lineBytes

section

variable {g : Geometry} (h : g.Valid)
include h

theorem Valid.shift_lt : g.addresses.shift < 64 := by
  obtain ⟨k, hk, -, hshift⟩ := h.exists_shift
  rwa [hshift]

theorem Valid.one_le_lineBytes : 1 ≤ g.addresses.lineBytes := by
  rw [UInt64.le_iff_toNat_le]
  exact h.lineBytes_pos.trans_eq h.toNat_lineBytes.symm

theorem Valid.sets_mul_ways_lt : g.sets * g.ways < Text.wordLimit :=
  (Nat.le_mul_of_pos_right _ h.lineBytes_pos).trans_lt h.capacity_lt

theorem Valid.capacityChecked_eq : g.capacityChecked = .ok g.capacity := by
  rw [capacityChecked, Checked.mul_eq h.sets_mul_ways_lt]
  exact Checked.mul_eq h.capacity_lt

theorem Valid.decodeChecked_eq (a : UInt64) :
    g.addresses.decodeChecked a = .ok (g.addresses.decode a) := by
  rw [AddressMap.decodeChecked, Checked.shiftRight, if_pos h.shift_lt]
  rfl

theorem Valid.lineBaseChecked_eq (a : UInt64) :
    g.addresses.lineBaseChecked a = .ok (g.addresses.lineBase a) := by
  rw [AddressMap.lineBaseChecked, Checked.sub, if_pos h.one_le_lineBytes]
  rfl

theorem Valid.lineAddressChecked_eq (tag : UInt64) :
    g.addresses.lineAddressChecked tag = .ok (g.addresses.lineAddress tag) :=
  if_pos h.shift_lt

end

end Geometry

/-! ## Replacement -/

namespace Stamps

/-- No way has been stamped yet.  The number of stamps has to fit a word; whether there is room for
them is not asked here. -/
def freshChecked (sets ways : ℕ) : Except Mishap Stamps := do
  let count ← Checked.mul sets ways
  return { stamps := Array.replicate count 0, ways, clock := 0 }

/-- Stamps a way with the present time. -/
def markChecked (s : Stamps) (set way : ℕ) : Except Mishap Stamps := do
  let place ← Checked.slot s.ways set way
  let stamps ← Checked.set s.stamps place s.clock
  return { s with stamps }

/-- The way to replace.  The stamps of the set are cut out first, as many as there are lines, and
looked at only if all lines are there. -/
def victimChecked (s : Stamps) (set : ℕ) (lines : List Line) : Except Mishap ℕ := do
  let base ← Checked.mul set s.ways
  let stamps ← Checked.slice s.stamps base lines.length
  match lines.findIdx? (fun line => !line.valid) with
  | some way => return way
  | none =>
    let times ← (List.range lines.length).mapM (Checked.get stamps)
    return firstLeast (times.map UInt64.toNat)

section

variable {s : Stamps} {sets ways set way : ℕ} (h : s.Fits sets ways)
  (hfits : sets * ways < Text.wordLimit) (hset : set < sets)
include h hfits hset

theorem Fits.markChecked_eq (hway : way < ways) : s.markChecked set way = .ok (s.mark set way) := by
  have hplace : set * ways + way < s.stamps.size := h.size_eq ▸ slot_lt hset hway
  rw [markChecked, h.ways_eq, Checked.slot_eq hfits hset hway, ok_bind, Checked.set_eq hplace,
    ok_bind, Stamps.mark, slot, h.ways_eq]
  rfl

theorem Fits.victimChecked_eq {lines : List Line} (hlines : lines.length = ways) :
    s.victimChecked set lines = .ok (s.victim set lines) := by
  have hsize : s.stamps.size < Text.wordLimit := h.size_eq ▸ hfits
  have hinside : set * ways + lines.length ≤ s.stamps.size := by
    rw [hlines, h.size_eq]
    exact Checked.base_add_le hset
  have hcut : (s.stamps.extract (set * ways) (set * ways + lines.length)).size = lines.length := by
    rw [Array.size_extract]
    omega
  -- The stamp of each way is looked up in the slice.
  have htimes : (List.range lines.length).mapM
      (Checked.get (s.stamps.extract (set * ways) (set * ways + lines.length))) =
        .ok (s.ofSet set lines.length) := by
    refine mapM_eq_ok fun way hway => ?_
    have hlt : way < lines.length := List.mem_range.mp hway
    have hinside' : set * ways + way < s.stamps.size := by omega
    rw [Checked.get_eq (hcut.symm ▸ hlt) 0, stamp, slot, h.ways_eq]
    simp [Array.getElem?_eq_getElem (hcut.symm ▸ hlt), hinside']
  rw [victimChecked, h.ways_eq, Checked.mul_set_eq hfits hset, ok_bind,
    Checked.slice_eq hinside hsize, ok_bind, victim]
  cases lines.findIdx? fun line => !line.valid with
  | some way => rfl
  | none =>
    dsimp only
    rw [htimes, ok_bind]
    rfl

end

end Stamps

namespace Replacement

/-- The state before the first access. -/
def freshChecked (policy : Policy) (sets ways : ℕ) (source : Source) :
    Except Mishap Replacement :=
  match policy with
  | .random => .ok (.random ways source)
  | .lru => (Stamps.freshChecked sets ways).map .lru
  | .fifo => (Stamps.freshChecked sets ways).map .fifo

/-- A line was hit. -/
def touchChecked (set way : ℕ) : Replacement → Except Mishap Replacement
  | .random ways source => .ok (.random ways source)
  | .lru s => (s.markChecked set way).map .lru
  | .fifo s => .ok (.fifo s)

/-- A line was installed. -/
def installChecked (set way : ℕ) : Replacement → Except Mishap Replacement
  | .random ways source => .ok (.random ways source)
  | .lru s => (s.markChecked set way).map .lru
  | .fifo s => (s.markChecked set way).map .fifo

/-- The way of `set` to replace, given the lines of the set. -/
def victimChecked (set : ℕ) (lines : List Line) : Replacement → Except Mishap (ℕ × Replacement)
  | .random ways source => do
    let way ← Checked.rem source.next.1.toNat ways
    return (way, .random ways source.next.2)
  | .lru s => (s.victimChecked set lines).map fun way => (way, .lru s)
  | .fifo s => (s.victimChecked set lines).map fun way => (way, .fifo s)

theorem freshChecked_eq (policy : Policy) {sets ways : ℕ} (hfits : sets * ways < Text.wordLimit)
    (source : Source) :
    freshChecked policy sets ways source = .ok (fresh policy sets ways source) := by
  have hstamps : Stamps.freshChecked sets ways = .ok (.fresh sets ways) := by
    rw [Stamps.freshChecked, Checked.mul_eq hfits]
    rfl
  cases policy with
  | random => rfl
  | lru | fifo => rw [freshChecked, hstamps]; rfl

section

variable {r : Replacement} {sets ways set way : ℕ} (h : r.Fits sets ways)
  (hfits : sets * ways < Text.wordLimit) (hset : set < sets)
include h hfits hset

theorem Fits.touchChecked_eq (hway : way < ways) :
    r.touchChecked set way = .ok (r.touch set way) := by
  cases r with
  | random | fifo => rfl
  | lru s => rw [touchChecked, Stamps.Fits.markChecked_eq h hfits hset hway]; rfl

theorem Fits.installChecked_eq (hway : way < ways) :
    r.installChecked set way = .ok (r.install set way) := by
  cases r with
  | random => rfl
  | lru s | fifo s => rw [installChecked, Stamps.Fits.markChecked_eq h hfits hset hway]; rfl

theorem Fits.victimChecked_eq {lines : List Line} (hlines : lines.length = ways)
    (hways : 0 < ways) : r.victimChecked set lines = .ok (r.victim set lines) := by
  cases r with
  | random ways' source =>
    obtain rfl : ways' = ways := h
    rw [victimChecked, Checked.rem, if_neg hways.ne']
    rfl
  | lru s | fifo s => rw [victimChecked, Stamps.Fits.victimChecked_eq h hfits hset hlines]; rfl

example : (random 0 default).victimChecked 0 [] = .error .zeroDivisor := rfl

end

end Replacement

/-! ## The array store -/

namespace ArrayStore

/-- All places empty.  The number of places has to fit a word; whether there is room for them is not
asked here. -/
def freshChecked (sets ways : ℕ) : Except Mishap ArrayStore := do
  let count ← Checked.mul sets ways
  return { lines := Array.replicate count Line.empty, ways }

/-- The places of a set, in order. -/
def setLinesChecked (s : ArrayStore) (set : ℕ) : Except Mishap (List Line) := do
  let base ← Checked.mul set s.ways
  let lines ← Checked.slice s.lines base s.ways
  return lines.toList

/-- The first way of the set that holds the line with the given tag. -/
def findChecked (s : ArrayStore) (set : ℕ) (tag : UInt64) : Except Mishap (Option ℕ) := do
  let lines ← s.setLinesChecked set
  return lines.findIdx? fun line => line.holds tag

/-- The place at a way of a set. -/
def lineChecked (s : ArrayStore) (set way : ℕ) : Except Mishap Line := do
  let place ← Checked.slot s.ways set way
  Checked.get s.lines place

/-- Puts `line` at a way of a set. -/
def putChecked (s : ArrayStore) (set way : ℕ) (line : Line) : Except Mishap ArrayStore := do
  let place ← Checked.slot s.ways set way
  let lines ← Checked.set s.lines place line
  return { s with lines }

section

variable {s : ArrayStore} {sets ways set way : ℕ} (h : s.Sound sets ways)
  (hfits : sets * ways < Text.wordLimit) (hset : set < sets)
include h hfits hset

theorem Sound.setLinesChecked_eq : s.setLinesChecked set = .ok (s.setLines set) := by
  have hsize : s.lines.size < Text.wordLimit := h.size_eq ▸ hfits
  have hinside : set * ways + ways ≤ s.lines.size := h.size_eq ▸ Checked.base_add_le hset
  have hline : s.line set = fun way => s.lines.getD (set * ways + way) Line.empty := by
    funext way
    rw [line, slot, h.ways_eq]
  rw [setLinesChecked, h.ways_eq, Checked.mul_set_eq hfits hset, ok_bind,
    Checked.slice_eq hinside hsize, ok_bind, Checked.toList_extract hinside Line.empty, setLines,
    h.ways_eq, hline]
  rfl

theorem Sound.findChecked_eq (tag : UInt64) : s.findChecked set tag = .ok (s.find set tag) := by
  rw [findChecked, h.setLinesChecked_eq hfits hset]
  rfl

theorem Sound.lineChecked_eq (hway : way < ways) :
    s.lineChecked set way = .ok (s.line set way) := by
  have hplace : set * ways + way < s.lines.size := h.size_eq ▸ slot_lt hset hway
  rw [lineChecked, h.ways_eq, Checked.slot_eq hfits hset hway, ok_bind,
    Checked.get_eq hplace Line.empty, line, slot, h.ways_eq]

theorem Sound.putChecked_eq (hway : way < ways) (line : Line) :
    s.putChecked set way line = .ok (s.put set way line) := by
  have hplace : set * ways + way < s.lines.size := h.size_eq ▸ slot_lt hset hway
  rw [putChecked, h.ways_eq, Checked.slot_eq hfits hset hway, ok_bind, Checked.set_eq hplace,
    ok_bind, ArrayStore.put, slot, h.ways_eq]
  rfl

end

end ArrayStore

/-! ## The map store -/

namespace MapStore

/-- The line at a place. -/
def lineChecked (s : MapStore) (way : ℕ) : Except Mishap Line :=
  Checked.get s.lines way

/-- Puts `line` at a place that is there already. -/
def putChecked (s : MapStore) (way : ℕ) (line : Line) : Except Mishap MapStore := do
  let lines ← Checked.set s.lines way line
  return { s with lines }

/-- Installs a line at the next place, or over the line that stands at `way`. -/
def installChecked (s : MapStore) (way : ℕ) (tag : UInt64) : Except Mishap (Line × MapStore) :=
  if way = s.lines.size then
    .ok (Line.empty,
      { s with lines := s.lines.push (Line.fresh tag), index := s.index.insert tag way })
  else do
    let old ← s.lineChecked way
    let s' ← s.putChecked way (Line.fresh tag)
    let index := if old.valid then s.index.erase old.tag else s.index
    return (old, { s' with index := index.insert tag way })

section

variable {s : MapStore} {way : ℕ}

theorem lineChecked_eq (h : way < s.lines.size) : s.lineChecked way = .ok (s.line way) :=
  Checked.get_eq h Line.empty

theorem putChecked_eq (h : way < s.lines.size) (line : Line) :
    s.putChecked way line = .ok (s.put way line) := by
  rw [putChecked, Checked.set_eq h]
  rfl

/-- A place beyond the next one could not be written. -/
theorem installChecked_eq (h : way ≤ s.lines.size) (tag : UInt64) :
    s.installChecked way tag = .ok (s.install way tag) := by
  rw [installChecked, install]
  split
  · rfl
  · next hne =>
    have hlt : way < s.lines.size := lt_of_le_of_ne h hne
    rw [lineChecked_eq hlt, ok_bind, putChecked_eq hlt]
    rfl

-- In an empty store only the first place can be filled.
example : (fresh 2).installChecked 1 5 = .error .outOfRange := rfl

end

end MapStore

/-! ## Both kinds of stores -/

namespace TagStore

/-- A store without lines. -/
def freshChecked (kind : StoreKind) (sets ways : ℕ) : Except Mishap TagStore :=
  match kind with
  | .array => (ArrayStore.freshChecked sets ways).map array
  | .map => .ok (map (.fresh ways))

/-- The way of `set` that holds the line with the given tag. -/
def findChecked (set : ℕ) (tag : UInt64) : TagStore → Except Mishap (Option ℕ)
  | array s => s.findChecked set tag
  | map s => .ok (s.find tag)

/-- The line at a way of a set. -/
def lineChecked (set way : ℕ) : TagStore → Except Mishap Line
  | array s => s.lineChecked set way
  | map s => s.lineChecked way

/-- Puts `line` at a way of a set. -/
def putChecked (set way : ℕ) (line : Line) : TagStore → Except Mishap TagStore
  | array s => (s.putChecked set way line).map array
  | map s => (s.putChecked way line).map map

/-- Sets the dirty bit at a way of a set. -/
def setDirtyChecked (set way : ℕ) (dirty : Bool) (s : TagStore) : Except Mishap TagStore := do
  let line ← s.lineChecked set way
  s.putChecked set way { line with dirty }

/-- The way of `set` that the next missing line goes to. -/
def victimizeChecked (set : ℕ) (replacement : Replacement) :
    TagStore → Except Mishap (ℕ × Replacement)
  | array s => do
    let lines ← s.setLinesChecked set
    replacement.victimChecked set lines
  | map s =>
    if s.isFull then replacement.victimChecked 0 s.lines.toList
    else .ok (s.lines.size, replacement)

/-- Installs a line at a way of a set; the line that was there is returned too. -/
def installChecked (set way : ℕ) (tag : UInt64) : TagStore → Except Mishap (Line × TagStore)
  | array s => do
    let old ← s.lineChecked set way
    let s' ← s.putChecked set way (Line.fresh tag)
    return (old, array s')
  | map s => (s.installChecked way tag).map fun installed => (installed.1, map installed.2)

theorem freshChecked_eq (kind : StoreKind) {sets ways : ℕ}
    (hfits : sets * ways < Text.wordLimit) :
    freshChecked kind sets ways = .ok (fresh kind sets ways) := by
  cases kind with
  | map => rfl
  | array =>
    rw [freshChecked, ArrayStore.freshChecked, Checked.mul_eq hfits]
    rfl

section

variable {s : TagStore} {sets ways set way : ℕ} (h : s.Sound sets ways)
  (hfits : sets * ways < Text.wordLimit) (hset : set < sets)
include h hfits hset

theorem Sound.findChecked_eq (tag : UInt64) : s.findChecked set tag = .ok (s.find set tag) := by
  cases s with
  | array s => exact ArrayStore.Sound.findChecked_eq h hfits hset tag
  | map s => rfl

/-- A line can be looked at. -/
theorem Sound.lineChecked_eq (hway : way < ways) (hvalid : (s.line set way).valid = true) :
    s.lineChecked set way = .ok (s.line set way) := by
  cases s with
  | array s => exact ArrayStore.Sound.lineChecked_eq h hfits hset hway
  | map s => exact MapStore.lineChecked_eq (MapStore.lt_size_of_valid hvalid)

theorem Sound.setDirtyChecked_eq (dirty : Bool) (hway : way < ways)
    (hvalid : (s.line set way).valid = true) :
    s.setDirtyChecked set way dirty = .ok (s.setDirty set way dirty) := by
  rw [setDirtyChecked, h.lineChecked_eq hfits hset hway hvalid, ok_bind]
  cases s with
  | array s =>
    rw [putChecked, ArrayStore.Sound.putChecked_eq h hfits hset hway]
    rfl
  | map s =>
    rw [putChecked, MapStore.putChecked_eq (MapStore.lt_size_of_valid hvalid)]
    rfl

theorem Sound.victimizeChecked_eq {r : Replacement} (hr : r.Fits sets ways) (hways : 0 < ways) :
    s.victimizeChecked set r = .ok (s.victimize set r) := by
  cases s with
  | array s =>
    have hlines : (s.setLines set).length = ways := by
      rw [ArrayStore.length_setLines, ArrayStore.Sound.ways_eq h]
    rw [victimizeChecked, ArrayStore.Sound.setLinesChecked_eq h hfits hset]
    exact hr.victimChecked_eq hfits hset hlines hways
  | map s =>
    obtain ⟨rfl, h⟩ := h
    rw [victimizeChecked, victimize]
    split
    · next hfull =>
      have hlines : s.lines.toList.length = ways := by simpa using h.size_eq_of_isFull hfull
      exact hr.victimChecked_eq hfits Nat.zero_lt_one hlines hways
    · rfl

/-- A line can be installed at any way that the store offers. -/
theorem Sound.installChecked_eq (hway : s.Offers ways way) (tag : UInt64) :
    s.installChecked set way tag = .ok (s.install set way tag) := by
  cases s with
  | array s =>
    have hway' : way < ways := hway
    rw [installChecked, ArrayStore.Sound.lineChecked_eq h hfits hset hway', ok_bind,
      ArrayStore.Sound.putChecked_eq h hfits hset hway']
    rfl
  | map s =>
    rw [installChecked, MapStore.installChecked_eq hway.2]
    rfl

end

end TagStore

end CacheModel

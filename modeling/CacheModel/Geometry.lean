import CacheModel.Address
import CacheModel.Policy
import CacheModel.Text.Numeral

/-!
# Cache geometries

A geometry is the shape of one cache: the number of sets, the number of ways in a set, the size
of a line and the replacement policy.  A cache can be built from a geometry when sets and line
size are powers of two, there is at least one way, a line has at least eight bytes and the whole
capacity fits a word.  The problems are looked for in this order, and the first one is reported.

A geometry text is `sets:ways:line-bytes` with an optional `:policy`, and the random policy is
meant when none is given.
-/

namespace CacheModel

/-- Lines are at least this long. -/
def minLineBytes : Nat := 8

/-- A single set with more ways than this is searched through a map. -/
def mapThreshold : Nat := 4

/-- The shape of one cache. -/
structure Geometry where
  sets : Nat
  ways : Nat
  lineBytes : Nat
  policy : Policy
  deriving Repr, DecidableEq

/-- Why a geometry, or a text that should hold one, is refused. -/
inductive GeometryError where
  /-- The text does not have the right fields, or one of its numbers cannot be read. -/
  | malformed (text : String)
  | invalidSets (sets : Nat)
  | invalidWays (ways : Nat)
  | invalidLineSize (lineBytes : Nat)
  /-- The capacity does not fit a word of 64 bits. -/
  | tooLarge (sets ways lineBytes : Nat)
  | unknownPolicy (text : String)
  deriving Repr, DecidableEq

namespace GeometryError

/-- The sentence shown for a refused geometry. -/
def message : GeometryError → String
  | malformed text => s!"malformed cache configuration `{text}`"
  | invalidSets sets => s!"invalid set count {sets}: must be a non-zero power of two"
  | invalidWays ways => s!"invalid way count {ways}: must be at least 1"
  | invalidLineSize lineBytes =>
    s!"invalid line size {lineBytes}: must be a power of two of at least 8 bytes"
  | tooLarge sets ways lineBytes => s!"cache geometry {sets}:{ways}:{lineBytes} is too large"
  | unknownPolicy text => s!"unknown replacement policy `{text}`: expected R, L or F"

end GeometryError

/-- Whether `n` is a power of two; zero is none. -/
def isPowerOfTwo (n : Nat) : Bool :=
  Nat.pow 2 n.log2 == n

@[simp] theorem isPowerOfTwo_two_pow (k : Nat) : isPowerOfTwo (Nat.pow 2 k) = true := by
  have hlog : (Nat.pow 2 k).log2 = k := Nat.log2_two_pow
  rw [isPowerOfTwo, hlog, beq_self_eq_true]

theorem isPowerOfTwo_iff {n : Nat} : isPowerOfTwo n = true ↔ ∃ k, n = Nat.pow 2 k := by
  constructor
  · intro h
    exact ⟨n.log2, (beq_iff_eq.mp h).symm⟩
  · rintro ⟨k, rfl⟩
    exact isPowerOfTwo_two_pow k

namespace Geometry

/-- The number of bytes that the cache can hold. -/
def capacity (g : Geometry) : Nat :=
  g.sets * g.ways * g.lineBytes

/-- The first reason why no cache can have this shape. -/
def fault? (g : Geometry) : Option GeometryError :=
  if !isPowerOfTwo g.sets then some (.invalidSets g.sets)
  else if g.ways = 0 then some (.invalidWays g.ways)
  else if g.lineBytes < minLineBytes || !isPowerOfTwo g.lineBytes then
    some (.invalidLineSize g.lineBytes)
  else if Text.wordLimit ≤ g.capacity then some (.tooLarge g.sets g.ways g.lineBytes)
  else none

/-- The geometry itself when a cache can have this shape. -/
def check (g : Geometry) : Except GeometryError Geometry :=
  match g.fault? with
  | some error => .error error
  | none => .ok g

theorem fault?_eq_none_iff {g : Geometry} :
    g.fault? = none ↔
      isPowerOfTwo g.sets = true ∧ g.ways ≠ 0 ∧ minLineBytes ≤ g.lineBytes ∧
        isPowerOfTwo g.lineBytes = true ∧ g.capacity < Text.wordLimit := by
  simp only [fault?, Bool.not_eq_true', Bool.or_eq_true, decide_eq_true_eq]
  grind

/-- Whether the cache is one set large enough to be searched through a map. -/
def isFullyAssociative (g : Geometry) : Bool :=
  g.sets == 1 && decide (mapThreshold < g.ways)

/-! ## Geometry texts -/

/-- The text of a geometry: its numbers and the code of its policy, joined by colons. -/
def render (g : Geometry) : String :=
  s!"{g.sets}:{g.ways}:{g.lineBytes}:{g.policy.code}"

/-- A numeral of a geometry text: blanks around it do not count. -/
def number? (field : List Char) : Option Nat :=
  Text.word64? 10 (Text.trim field)

/-- Reads the fields of a geometry text; `whole` is the text as it was given. -/
def ofFields (whole : String) (sets ways lineBytes : List Char)
    (policy : Except GeometryError Policy) :
    Except GeometryError Geometry :=
  match number? sets, number? ways, number? lineBytes with
  | some sets, some ways, some lineBytes => do
    let policy ← policy
    check { sets, ways, lineBytes, policy }
  | _, _, _ => .error (.malformed whole)

/-- The policy in the last field of a geometry text. -/
def policyField (field : List Char) : Except GeometryError Policy :=
  match Policy.ofText? field with
  | some policy => .ok policy
  | none => .error (.unknownPolicy (String.ofList field))

/-- Reads a geometry text.  Bad fields and numbers come first, then the policy, then the shape. -/
def parse (text : String) : Except GeometryError Geometry :=
  match Text.splitBy (· == ':') text.toList with
  | [sets, ways, lineBytes] => ofFields text sets ways lineBytes (.ok .random)
  | [sets, ways, lineBytes, policy] => ofFields text sets ways lineBytes (policyField policy)
  | _ => .error (.malformed text)

/-- The advice that goes with a refused geometry. -/
def help : String :=
  "Cache configurations must be of the form\n" ++
  "  sets:ways:blocksize[:policy]\n" ++
  "where sets, ways, and blocksize are positive integers, with\n" ++
  "sets and blocksize both powers of two and blocksize at least 8.\n" ++
  "policy is R (random, the default), L (LRU) or F (FIFO)."

/-- How a cache of this shape splits addresses. -/
def addresses (g : Geometry) : AddressMap :=
  AddressMap.ofSizes g.lineBytes g.sets

end Geometry

end CacheModel

/-!
# Splitting byte addresses

A cache keeps whole lines of `lineBytes` consecutive bytes.  The tag of an address is the number
of the line it lies in, and the low bits of the tag choose the set.  Keeping the set bits in the
tag makes a tag unique for its line, so that a line is known from its tag alone.

Addresses and tags are words of 64 bits.  The map below is total: for sizes that are powers of
two it is division by the line size, and for any other sizes it is still the same shifts and
masks.
-/

namespace CacheModel

/-- The number of low zero bits of `n`, of which at most `width` are counted. -/
def trailingZeros : Nat → Nat → Nat
  | 0, _ => 0
  | width + 1, n => if n % 2 = 1 then 0 else trailingZeros width (n / 2) + 1

theorem trailingZeros_two_pow {width k : Nat} (h : k < width) :
    trailingZeros width (Nat.pow 2 k) = k := by
  induction width generalizing k with
  | zero => omega
  | succ width ih =>
    cases k with
    | zero => rfl
    | succ k =>
      have hdouble : Nat.pow 2 (k + 1) = Nat.pow 2 k * 2 := rfl
      have hodd : ¬ Nat.pow 2 (k + 1) % 2 = 1 := by omega
      have hhalf : Nat.pow 2 (k + 1) / 2 = Nat.pow 2 k := by omega
      rw [trailingZeros, if_neg hodd, hhalf, ih (by omega)]

/-- How one cache splits addresses: the width of the offset inside a line, the mask that cuts
the set out of a tag, and the line size. -/
structure AddressMap where
  shift : Nat
  setMask : UInt64
  lineBytes : UInt64
  deriving Repr, DecidableEq

namespace AddressMap

/-- The map for lines of `lineBytes` bytes spread over `sets` sets. -/
def ofSizes (lineBytes sets : Nat) : AddressMap :=
  { shift := trailingZeros 64 lineBytes
    setMask := sets.toUInt64 - 1
    lineBytes := lineBytes.toUInt64 }

/-- The number of the line that holds the byte at `address`. -/
def tag (m : AddressMap) (address : UInt64) : UInt64 :=
  address >>> m.shift.toUInt64

/-- The set that a line belongs to. -/
def setOfTag (m : AddressMap) (tag : UInt64) : Nat :=
  (tag &&& m.setMask).toNat

/-- The set and the tag of an address. -/
def decode (m : AddressMap) (address : UInt64) : Nat × UInt64 :=
  (m.setOfTag (m.tag address), m.tag address)

/-- The first byte of the line that holds `address`. -/
def lineBase (m : AddressMap) (address : UInt64) : UInt64 :=
  address &&& ~~~(m.lineBytes - 1)

/-- The first byte of the line with the given tag.  Bits above the word are lost. -/
def lineAddress (m : AddressMap) (tag : UInt64) : UInt64 :=
  tag <<< m.shift.toUInt64

theorem decode_snd (m : AddressMap) (address : UInt64) :
    (m.decode address).2 = m.tag address := rfl

theorem decode_fst (m : AddressMap) (address : UInt64) :
    (m.decode address).1 = m.setOfTag (m.tag address) := rfl

end AddressMap

end CacheModel

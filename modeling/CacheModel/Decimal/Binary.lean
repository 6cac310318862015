/-!
# Binary fractions

A finite floating-point number of 64 bits is a whole number times a power of two.  All decimal
texts of such numbers are computed from these two, in exact arithmetic.
-/

namespace CacheModel.Decimal

/-- The number `mantissa * 2 ^ exponent`, with a sign. -/
structure Binary where
  negative : Bool
  mantissa : Nat
  exponent : Int
  /-- The next smaller number of the format is only half as far away as the next larger one. -/
  closeBelow : Bool
  deriving Repr, DecidableEq

namespace Binary

/-- The number that a pattern of 64 bits stands for, which is meant to be finite: a sign bit,
eleven bits of exponent and fifty-two bits of fraction. -/
def ofBits (bits : UInt64) : Binary :=
  let scale := (bits >>> 52 &&& 0x7FF).toNat
  let fraction := (bits &&& 0xFFFFFFFFFFFFF).toNat
  { negative := bits >>> 63 == 1
    mantissa := if scale = 0 then fraction else 0x10000000000000 + fraction
    exponent := if scale = 0 then -1074 else (scale : Int) - 1075
    closeBelow := fraction == 0 && decide (1 < scale) }

/-- The number as a quotient of two whole numbers, the sign left out. -/
def numerator (b : Binary) : Nat :=
  b.mantissa <<< b.exponent.toNat

/-- The second part of the quotient. -/
def denominator (b : Binary) : Nat :=
  1 <<< (-b.exponent).toNat

end Binary

/-- The quotient rounded to the nearest whole number; of two equally near ones the even one. -/
def roundDiv (num den : Nat) : Nat :=
  let below := num / den
  let rest := 2 * (num % den)
  if rest < den then below
  else if den < rest then below + 1
  else if below % 2 = 0 then below
  else below + 1

end CacheModel.Decimal

import CacheModel.Decimal.Binary

/-!
# Decimals with a fixed number of places
-/

namespace CacheModel.Decimal

/-- The digits of `n`, with zeros in front up to `width` digits. -/
def paddedDigits (width n : Nat) : List Char :=
  List.replicate (width - (Nat.toDigits 10 n).length) '0' ++ Nat.toDigits 10 n

/-- The number with exactly `places` decimal places, rounded from its exact value. -/
def fixed (places : Nat) (b : Binary) : String :=
  let scaled := roundDiv (b.numerator * Nat.pow 10 places) b.denominator
  let digits := paddedDigits (places + 1) scaled
  let whole := digits.take (digits.length - places)
  let decimals := digits.drop (digits.length - places)
  String.ofList ((if b.negative then ['-'] else []) ++ whole ++ '.' :: decimals)

end CacheModel.Decimal

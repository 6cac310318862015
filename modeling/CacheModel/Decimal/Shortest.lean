import CacheModel.Decimal.Binary

/-!
# The shortest decimal that reads back

Among all decimals that round to a given binary number, the one with the fewest digits is taken,
and of several such the nearest.  On each decimal grid only the two neighbours of the number have
to be tried: if any point of the grid rounds to the number, one of these two does.
-/

namespace CacheModel.Decimal

/-- The decimal `digits * 10 ^ exponent`. -/
structure Scientific where
  digits : Nat
  exponent : Int
  deriving Repr, DecidableEq

namespace Scientific

/-- Moves zeros at the end of the digits into the exponent, at most `fuel` of them. -/
def dropZeros : Nat → Scientific → Scientific
  | 0, s => s
  | fuel + 1, s =>
    if s.digits ≠ 0 ∧ s.digits % 10 = 0 then
      dropZeros fuel { digits := s.digits / 10, exponent := s.exponent + 1 }
    else s

end Scientific

/-- The place of the first decimal digit of a positive quotient: zero for the unit place. -/
def leadingPlace (num den : Nat) : Int :=
  if den ≤ num then ((Nat.toDigits 10 (num / den)).length : Int) - 1
  else
    match (List.range 400).find? (fun j => den ≤ num * Nat.pow 10 (j + 1)) with
    | some j => -((j : Int) + 1)
    | none => 0

/-- The multiples of `10 ^ place` next to the number that round to it: none, or the nearer one. -/
def onGrid? (b : Binary) (place : Int) : Option Scientific :=
  let up := Nat.pow 10 (-place).toNat
  let den := 4 * b.denominator * Nat.pow 10 place.toNat
  let unit := up <<< b.exponent.toNat
  let value := 4 * b.mantissa * unit
  let low := value - (if b.closeBelow then 1 else 2) * unit
  let high := value + 2 * unit
  let rounds (c : Nat) : Bool :=
    if b.mantissa % 2 = 0 then decide (low ≤ c * den) && decide (c * den ≤ high)
    else decide (low < c * den) && decide (c * den < high)
  let below := value / den
  let nearest := roundDiv value den
  let other := if nearest = below then below + 1 else below
  if rounds nearest then some { digits := nearest, exponent := place }
  else if rounds other then some { digits := other, exponent := place }
  else none

/-- The decimal with the fewest digits that rounds to the number, without zeros at its end.
Seventeen digits are always enough. -/
def shortest (b : Binary) : Scientific :=
  if b.mantissa = 0 then { digits := 0, exponent := 0 }
  else
    let first := leadingPlace b.numerator b.denominator
    match (List.range 17).findSome? (fun n : Nat => onGrid? b (first - n)) with
    | some s => s.dropZeros 20
    | none => { digits := b.numerator, exponent := 0 }

/-- How a number is laid out: plainly while its first digit stands between these places, and with
an exponent otherwise. -/
structure Layout where
  lowestPlain : Int
  highestPlain : Int
  deriving Repr, DecidableEq

/-- The layout in structured data: places from minus five to fifteen are written plainly. -/
def Layout.standard : Layout :=
  { lowestPlain := -5, highestPlain := 15 }

/-- Writes digits whose first one stands at `place`.  A plain number has at least one decimal. -/
def Layout.write (layout : Layout) (digits : List Char) (place : Int) : List Char :=
  if layout.lowestPlain ≤ place ∧ place ≤ layout.highestPlain then
    if place < 0 then '0' :: '.' :: List.replicate ((-place).toNat - 1) '0' ++ digits
    else
      let whole := place.toNat + 1
      if digits.length ≤ whole then
        digits ++ List.replicate (whole - digits.length) '0' ++ ['.', '0']
      else digits.take whole ++ '.' :: digits.drop whole
  else
    let mark := if place < 0 then ['e', '-'] else ['e', '+']
    let body := match digits with
      | first :: next :: rest => first :: '.' :: next :: rest
      | few => few
    body ++ mark ++ Nat.toDigits 10 place.natAbs

/-- The shortest text of a finite number. -/
def shortestText (layout : Layout) (b : Binary) : String :=
  let s := shortest b
  let digits := Nat.toDigits 10 s.digits
  let place := s.exponent + digits.length - 1
  String.ofList ((if b.negative then ['-'] else []) ++ layout.write digits place)

end CacheModel.Decimal

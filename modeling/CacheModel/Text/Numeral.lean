/-!
# Numerals

An unsigned numeral is an optional plus sign and one or more digits of some base up to sixteen,
digits above nine being letters of either case.  A decimal may also have a point and an exponent.
-/

namespace CacheModel.Text

/-- The least number that does not fit a word of 64 bits. -/
def wordLimit : Nat := 0x10000000000000000

/-- The value of a digit of base sixteen, in either case. -/
def hexDigit? (c : Char) : Option Nat :=
  if '0' ≤ c ∧ c ≤ '9' then some (c.toNat - '0'.toNat)
  else if 'a' ≤ c ∧ c ≤ 'f' then some (c.toNat - 'a'.toNat + 10)
  else if 'A' ≤ c ∧ c ≤ 'F' then some (c.toNat - 'A'.toNat + 10)
  else none

/-- The value of a digit of the given base. -/
def digit? (base : Nat) (c : Char) : Option Nat :=
  (hexDigit? c).filter (· < base)

/-- The number that a list of digits denotes, the most significant digit first. -/
def ofDigits (base : Nat) (digits : List Nat) : Nat :=
  digits.foldl (fun value digit => value * base + digit) 0

/-- One or more digits, read as a number. -/
def digits? (base : Nat) (cs : List Char) : Option Nat :=
  if cs.isEmpty then none else (cs.mapM (digit? base)).map (ofDigits base)

/-- An unsigned numeral: an optional plus sign, then digits. -/
def unsigned? (base : Nat) : List Char → Option Nat
  | '+' :: cs => digits? base cs
  | cs => digits? base cs

/-- An unsigned numeral whose value fits a word of 64 bits. -/
def word64? (base : Nat) (cs : List Char) : Option Nat :=
  (unsigned? base cs).filter (· < wordLimit)

/-- Whether a text is nothing or the exponent of a decimal. -/
def isExponent : List Char → Bool
  | [] => true
  | mark :: cs =>
    let digits := match cs with
      | '+' :: digits => digits
      | '-' :: digits => digits
      | digits => digits
    (mark == 'e' || mark == 'E') && !digits.isEmpty && digits.all Char.isDigit

/-- Whether a text is a decimal without a sign: digits, perhaps with a point before, among or behind
them, and perhaps an exponent. -/
def isDecimal (cs : List Char) : Bool :=
  let whole := cs.takeWhile Char.isDigit
  match cs.dropWhile Char.isDigit with
  | '.' :: rest =>
    let places := rest.takeWhile Char.isDigit
    !(whole.isEmpty && places.isEmpty) && isExponent (rest.dropWhile Char.isDigit)
  | rest => !whole.isEmpty && isExponent rest

/-- The digits of `n` in base sixteen, in lower case and without leading zeros. -/
def hex (n : Nat) : String :=
  String.ofList (Nat.toDigits 16 n)

/-- The low `count` digits of `n` in base sixteen, with leading zeros. -/
def hexPadded (count n : Nat) : String :=
  String.ofList (List.replicate (count - (Nat.toDigits 16 n).length) '0' ++ Nat.toDigits 16 n)

end CacheModel.Text

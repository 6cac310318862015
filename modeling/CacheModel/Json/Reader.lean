import CacheModel.Json.Node
import CacheModel.Text.Numeral

/-!
# Reading structured data

Texts, numbers, words, arrays and objects, from left to right and without looking back.  At most
127 arrays and objects may be open at the same time; one more is a fault.

Where a value breaks, nothing behind it is read, so that what the tree holds after its first fault
means nothing.
-/

namespace CacheModel.Json

/-- What a reader of one thing returns: the thing and the text behind it. -/
abbrev Reading (α : Type) := Except Fault (α × List Char)

/-- The four characters that may stand between the parts of a text. -/
def isGap (c : Char) : Bool :=
  c == ' ' || c == '\n' || c == '\t' || c == '\r'

/-- The text without the gap at its start. -/
def skipGap (cs : List Char) : List Char :=
  cs.dropWhile isGap

/-- The rest of a word, letter by letter. -/
def readWord : List Char → List Char → Except Fault (List Char)
  | [], cs => .ok cs
  | _ :: _, [] => .error .ended
  | letter :: word, c :: cs => if c = letter then readWord word cs else .error .misplaced

/-! ## Texts -/

/-- Four digits of base sixteen, which take four bytes. -/
def readHex (cs : List Char) : Reading Nat :=
  if (cs.take 4).foldl (fun bytes c => bytes + c.utf8Size) 0 < 4 then .error .ended
  else match (cs.take 4).mapM Text.hexDigit? with
    | some digits => .ok (Text.ofDigits 16 digits, cs.drop 4)
    | none => .error .misplaced

/-- The number of a character that is written as two halves, of which the first is `high`. -/
def readLowHalf (high : Nat) : List Char → Reading Char
  | [] => .error .ended
  | ['\\'] => .error .ended
  | '\\' :: 'u' :: cs =>
    match readHex cs with
    | .error fault => .error fault
    | .ok (low, rest) =>
      if 0xDC00 ≤ low ∧ low ≤ 0xDFFF then
        .ok (Char.ofNat (0x10000 + (high - 0xD800) * 0x400 + (low - 0xDC00)), rest)
      else .error .misplaced
  | _ => .error .misplaced

/-- A character given by its number.  Characters above the first 65536 are written as two halves;
a half alone is a fault. -/
def readNumbered (cs : List Char) : Reading Char :=
  match readHex cs with
  | .error fault => .error fault
  | .ok (n, rest) =>
    if n < 0xD800 ∨ 0xDFFF < n then .ok (Char.ofNat n, rest)
    else if n < 0xDC00 then readLowHalf n rest
    else .error .misplaced

/-- The character that stands behind a backslash. -/
def readEscape : List Char → Reading Char
  | [] => .error .ended
  | '"' :: cs => .ok ('"', cs)
  | '\\' :: cs => .ok ('\\', cs)
  | '/' :: cs => .ok ('/', cs)
  | 'b' :: cs => .ok ('\x08', cs)
  | 'f' :: cs => .ok ('\x0c', cs)
  | 'n' :: cs => .ok ('\n', cs)
  | 'r' :: cs => .ok ('\r', cs)
  | 't' :: cs => .ok ('\t', cs)
  | 'u' :: cs => readNumbered cs
  | _ => .error .misplaced

/-- The next character of a text, or none at its closing quote. -/
def readCharacter : List Char → Reading (Option Char)
  | [] => .error .ended
  | '"' :: cs => .ok (none, cs)
  | '\\' :: cs => (readEscape cs).map fun (c, rest) => (some c, rest)
  | c :: cs => if c.toNat < 0x20 then .error .misplaced else .ok (some c, cs)

/-- The characters of a text up to its closing quote, of which at most `fuel` are read, behind
those that are already there, the last one first. -/
def readCharacters : Nat → List Char → List Char → Reading String
  | 0, _, _ => .error .ended
  | fuel + 1, sofar, cs =>
    match readCharacter cs with
    | .error fault => .error fault
    | .ok (none, rest) => .ok (String.ofList sofar.reverse, rest)
    | .ok (some c, rest) => readCharacters fuel (c :: sofar) rest

/-- A text behind its opening quote.  Each character takes at least one place. -/
def readText (cs : List Char) : Reading String :=
  readCharacters (cs.length + 1) [] cs

/-! ## Numbers -/

/-- Takes digits into a number as long as it fits a word; the digits that are left are returned
too. -/
def takeFitting (value : Nat) : List Nat → Nat × List Nat
  | [] => (value, [])
  | digit :: digits =>
    if value * 10 + digit < Text.wordLimit then takeFitting (value * 10 + digit) digits
    else (value, digit :: digits)

/-- A power of ten that a floating-point number can hold. -/
def powerOfTen (n : Nat) : Float :=
  Float.ofScientific 1 false n

/-- `x * 10 ^ exponent`, computed by one multiplication, or by divisions of at most 308 places
each; none if it is out of range.  Four divisions turn every number into zero. -/
def scale : Nat → Float → Int → Option Float
  | 0, x, _ => some x
  | fuel + 1, x, exponent =>
    if exponent.natAbs ≤ 308 then
      if exponent < 0 then some (x / powerOfTen exponent.natAbs)
      else if (x * powerOfTen exponent.natAbs).isInf then none
      else some (x * powerOfTen exponent.natAbs)
    else if x == 0 then some x
    else if exponent < 0 then scale fuel (x / powerOfTen 308) (exponent + 308)
    else none

/-- The parts of a number with a fraction or an exponent, or one that is too long for a word. -/
structure Real where
  negative : Bool
  significand : Nat
  exponent : Int

/-- The value of a number in parts; none if it is out of range. -/
def Real.value? (r : Real) : Option Float :=
  (scale 4 r.significand.toUInt64.toFloat r.exponent).map fun x => if r.negative then -x else x

/-- The value of a run of digits. -/
def digitValues (cs : List Char) : List Nat :=
  cs.map fun c => c.toNat - '0'.toNat

/-- Exponents above this one count as out of any range. -/
def exponentLimit : Nat := 0x7FFFFFFF

/-- The fault of a place where a digit is missing. -/
def noDigit (cs : List Char) : Fault :=
  if cs.isEmpty then .ended else .misplaced

/-- Finishes a number in parts. -/
def finishReal (r : Real) (rest : List Char) : Reading Number :=
  match r.value? with
  | some x => .ok (.real x, rest)
  | none => .error .misplaced

/-- The exponent of a number, behind its letter. -/
def readExponent (r : Real) (cs : List Char) : Reading Number :=
  let (down, cs) := match cs with
    | '-' :: cs => (true, cs)
    | '+' :: cs => (false, cs)
    | cs => (false, cs)
  let digits := cs.takeWhile Char.isDigit
  let rest := cs.dropWhile Char.isDigit
  if digits.isEmpty then .error (noDigit rest)
  else
    let size := Text.ofDigits 10 (digitValues digits)
    if exponentLimit < size then
      if r.significand ≠ 0 ∧ !down then .error .misplaced
      else finishReal { r with significand := 0, exponent := 0 } rest
    else
      finishReal { r with exponent := if down then r.exponent - size else r.exponent + size } rest

/-- What may follow the digits of a number in parts: an exponent. -/
def readScaled (r : Real) : List Char → Reading Number
  | 'e' :: cs => readExponent r cs
  | 'E' :: cs => readExponent r cs
  | cs => finishReal r cs

/-- The fraction of a number, behind its point.  Digits that do not fit are left out. -/
def readFraction (r : Real) (cs : List Char) : Reading Number :=
  let digits := digitValues (cs.takeWhile Char.isDigit)
  let rest := cs.dropWhile Char.isDigit
  if digits.isEmpty then .error (noDigit rest)
  else
    let (significand, left) := takeFitting r.significand digits
    readScaled
      { r with significand, exponent := r.exponent - (digits.length - left.length : Nat) } rest

/-- The size of the least number that a signed word of 64 bits holds. -/
def signedLimit : Nat := 0x8000000000000000

/-- A whole number that fits a word.  With a minus sign it has to fit a signed word and must not
be zero; otherwise it is taken as a floating-point number. -/
def Number.ofWhole (negative : Bool) (n : Nat) : Number :=
  if !negative then .natural n
  else if n = 0 ∨ signedLimit < n then .real (-n.toUInt64.toFloat)
  else .negative n

/-- A number behind its sign.  There is no zero in front of other digits.  Digits of the whole
part that do not fit a word only raise the exponent. -/
def readNumber (negative : Bool) (cs : List Char) : Reading Number :=
  let digits := digitValues (cs.takeWhile Char.isDigit)
  let rest := cs.dropWhile Char.isDigit
  match digits with
  | [] => .error (noDigit rest)
  | 0 :: _ :: _ => .error .misplaced
  | digits =>
    let (significand, left) := takeFitting 0 digits
    let r : Real := { negative, significand, exponent := left.length }
    match rest with
    | '.' :: cs => readFraction r cs
    | 'e' :: cs => readExponent r cs
    | 'E' :: cs => readExponent r cs
    | rest => if left.isEmpty then .ok (.ofWhole negative significand, rest) else finishReal r rest

/-! ## Values -/

/-- The most arrays and objects that may be open at the same time. -/
def maxDepth : Nat := 127

/-- A value and the text behind it; nothing is left behind a broken one. -/
def Node.ofReading {α : Type} (beginning : Beginning) (f : α → Node) :
    Reading α → Node × List Char
  | .ok (a, rest) => (f a, rest)
  | .error fault => (.broken beginning fault, [])

/-- The value that a word stands for. -/
def Node.ofWord (node : Node) : Except Fault (List Char) → Node × List Char
  | .ok rest => (node, rest)
  | .error fault => (.broken .word fault, [])

mutual

/-- A value, with room for `depth` more open arrays and objects. -/
def readNode : Nat → Nat → List Char → Node × List Char
  | 0, _, _ => (.broken .absent .ended, [])
  | fuel + 1, depth, cs =>
    match skipGap cs with
    | [] => (.broken .absent .ended, [])
    | 'n' :: cs => Node.ofWord .null (readWord ['u', 'l', 'l'] cs)
    | 't' :: cs => Node.ofWord (.boolean true) (readWord ['r', 'u', 'e'] cs)
    | 'f' :: cs => Node.ofWord (.boolean false) (readWord ['a', 'l', 's', 'e'] cs)
    | '"' :: cs => Node.ofReading .text .text (readText cs)
    | '-' :: cs => Node.ofReading .number .number (readNumber true cs)
    | '[' :: cs =>
      match depth with
      | 0 => (.broken .absent .misplaced, [])
      | depth + 1 =>
        let (items, rest) := readItems fuel depth true cs
        (.array items, rest)
    | '{' :: cs =>
      match depth with
      | 0 => (.broken .absent .misplaced, [])
      | depth + 1 =>
        let (members, rest) := readMembers fuel depth true cs
        (.object members, rest)
    | c :: cs =>
      if c.isDigit then Node.ofReading .number .number (readNumber false (c :: cs))
      else (.broken .absent .misplaced, [])

/-- The items of an array, from its start or from behind an item. -/
def readItems : Nat → Nat → Bool → List Char → Items × List Char
  | 0, _, _, _ => (.broken .ended, [])
  | fuel + 1, depth, atStart, cs =>
    match skipGap cs, atStart with
    | [], _ => (.broken .ended, [])
    | ']' :: rest, _ => (.closed, rest)
    | cs, true =>
      let (value, rest) := readNode fuel depth cs
      let (items, rest) := readItems fuel depth false rest
      (.item value items, rest)
    | ',' :: cs, false =>
      match skipGap cs with
      | [] => (.dangling .ended, [])
      | ']' :: _ => (.dangling .misplaced, [])
      | cs =>
        let (value, rest) := readNode fuel depth cs
        let (items, rest) := readItems fuel depth false rest
        (.item value items, rest)
    | _, false => (.broken .misplaced, [])

/-- The members of an object, from its start or from behind a member. -/
def readMembers : Nat → Nat → Bool → List Char → Members × List Char
  | 0, _, _, _ => (.broken .ended, [])
  | fuel + 1, depth, atStart, cs =>
    match skipGap cs, atStart with
    | [], _ => (.broken .ended, [])
    | '}' :: rest, _ => (.closed, rest)
    | '"' :: cs, true =>
      match readText cs with
      | .error fault => (.broken fault, [])
      | .ok (key, rest) => readMember fuel depth key rest
    | _, true => (.broken .misplaced, [])
    | ',' :: cs, false =>
      match skipGap cs with
      | [] => (.dangling .ended, [])
      | '"' :: cs =>
        match readText cs with
        | .error fault => (.dangling fault, [])
        | .ok (key, rest) => readMember fuel depth key rest
      | _ => (.dangling .misplaced, [])
    | _, false => (.broken .misplaced, [])

/-- A member behind its key, and the members after it. -/
def readMember : Nat → Nat → String → List Char → Members × List Char
  | 0, _, _, _ => (.broken .ended, [])
  | fuel + 1, depth, key, cs =>
    match skipGap cs with
    | [] => (.member key (.broken .absent .ended) .closed, [])
    | ':' :: cs =>
      let (value, rest) := readNode fuel depth cs
      let (members, rest) := readMembers fuel depth false rest
      (.member key value members, rest)
    | _ => (.member key (.broken .absent .misplaced) .closed, [])

end

/-- Reads a text.  Every character opens at most three of the calls that count. -/
def readDocument (text : String) : Document :=
  let cs := text.toList
  let (value, rest) := readNode (3 * cs.length + 4) maxDepth cs
  { value, trailing := if (skipGap rest).isEmpty then none else some .misplaced }

end CacheModel.Json

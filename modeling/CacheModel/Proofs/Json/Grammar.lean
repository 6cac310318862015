import Mathlib
import CacheModel.Json.Reader

/-!
# How structured data is written

What the reader accepts, said without a reader: which runs of characters are a way to write a
character, a text, a number and a value.  The rules say nothing about the order in which a text is
looked at, and none of them looks at what stands behind.

Two limits belong to the format.  At most `maxDepth` arrays and objects are open at the same time,
so that the rules for values count how many more may be opened.  And a number that is no whole
number of a word is rounded to a floating-point number, which exists only up to some size.
-/

namespace CacheModel.Json

/-- Nothing but characters that may stand between the parts of a text. -/
def Gap (cs : List Char) : Prop := ∀ c ∈ cs, isGap c = true

/-! ## Texts -/

/-- What a letter behind a backslash stands for. -/
def escapes : List (Char × Char) :=
  [('"', '"'), ('\\', '\\'), ('/', '/'), ('b', '\x08'), ('f', '\x0c'), ('n', '\n'), ('r', '\r'),
   ('t', '\t')]

/-- Four digits of base sixteen and their value. -/
def SpellsHex (cs : List Char) (n : ℕ) : Prop :=
  cs.length = 4 ∧ (cs.mapM Text.hexDigit?).map (Text.ofDigits 16) = some n

/-- The ways to write one character of a text: as it is, behind a backslash, by its number, or, if
its number is too large for four digits, by two halves. -/
inductive SpellsCharacter : List Char → Char → Prop
  | plain {c : Char} (hcontrol : 0x20 ≤ c.toNat) (hquote : c ≠ '"') (hslash : c ≠ '\\') :
    SpellsCharacter [c] c
  | escaped {mark c : Char} (h : (mark, c) ∈ escapes) : SpellsCharacter ['\\', mark] c
  | numbered {digits : List Char} {n : ℕ} (h : SpellsHex digits n) (hn : n < 0xD800 ∨ 0xDFFF < n) :
    SpellsCharacter ('\\' :: 'u' :: digits) (Char.ofNat n)
  | halved {digits digits' : List Char} {high low : ℕ} (h : SpellsHex digits high)
      (hhigh : 0xD800 ≤ high ∧ high < 0xDC00) (h' : SpellsHex digits' low)
      (hlow : 0xDC00 ≤ low ∧ low ≤ 0xDFFF) :
    SpellsCharacter ('\\' :: 'u' :: digits ++ '\\' :: 'u' :: digits')
      (Char.ofNat (0x10000 + (high - 0xD800) * 0x400 + (low - 0xDC00)))

/-- The ways to write several characters and the quote that closes them. -/
inductive SpellsCharacters : List Char → List Char → Prop
  | closed : SpellsCharacters ['"'] []
  | character {xs ys cs : List Char} {c : Char} (h : SpellsCharacter xs c)
      (hrest : SpellsCharacters ys cs) : SpellsCharacters (xs ++ ys) (c :: cs)

/-- The ways to write a text, behind the quote that opens it. -/
def SpellsText (cs : List Char) (s : String) : Prop := SpellsCharacters cs s.toList

/-! ## Numbers -/

/-- One or more digits. -/
def Digits (cs : List Char) : Prop := cs ≠ [] ∧ ∀ c ∈ cs, c.isDigit = true

/-- Digits without a needless zero in front. -/
def Whole (cs : List Char) : Prop := Digits cs ∧ (cs.head? = some '0' → cs = ['0'])

/-- An exponent: its letter, perhaps a sign, and digits. -/
structure Exponent where
  mark : Char
  sign : Option Char
  digits : List Char

/-- A number as it is written. -/
structure Literal where
  negative : Bool
  whole : List Char
  fraction : Option (List Char)
  exponent : Option Exponent

/-- The exponent as it is written. -/
def Exponent.text (e : Exponent) : List Char := e.mark :: e.sign.toList ++ e.digits

/-- The size of an exponent. -/
def Exponent.size (e : Exponent) : ℕ := Text.ofDigits 10 (digitValues e.digits)

structure Exponent.WellFormed (e : Exponent) : Prop where
  mark : e.mark = 'e' ∨ e.mark = 'E'
  sign : e.sign = none ∨ e.sign = some '+' ∨ e.sign = some '-'
  digits : Digits e.digits

/-- The number behind further digits, which are taken in as far as they fit a word. -/
def Real.extended (r : Real) (digits : List Char) : Real :=
  let (significand, left) := takeFitting r.significand (digitValues digits)
  { r with
    significand
    exponent := r.exponent - (digits.length - left.length : ℕ) }

/-- The floating-point number with an exponent; none if it is out of range.  With
an exponent beyond the limit, only zero is in range, or everything is rounded to zero. -/
def Real.scaled? (r : Real) : Option Exponent → Option Number
  | none => r.value?.map .real
  | some e =>
    if exponentLimit < e.size then
      if r.significand ≠ 0 ∧ e.sign ≠ some '-' then none
      else ({ r with significand := 0, exponent := 0 } : Real).value?.map .real
    else
      ({ r with
          exponent := if e.sign = some '-' then r.exponent - e.size else r.exponent + e.size } :
        Real).value?.map .real

namespace Literal

/-- The number without its sign. -/
def unsigned (l : Literal) : List Char :=
  l.whole ++ (l.fraction.elim [] ('.' :: ·) ++ l.exponent.elim [] Exponent.text)

/-- The number as it is written. -/
def text (l : Literal) : List Char := if l.negative then '-' :: l.unsigned else l.unsigned

structure WellFormed (l : Literal) : Prop where
  whole : Whole l.whole
  fraction : ∀ digits, l.fraction = some digits → Digits digits
  exponent : ∀ e, l.exponent = some e → e.WellFormed

/-- The digits in front of the point as far as they fit a word; those that are left count as
zeros. -/
def parts (l : Literal) : Real :=
  let (significand, left) := takeFitting 0 (digitValues l.whole)
  { negative := l.negative, significand, exponent := left.length }

/-- The number that is meant: a whole one if there is neither point nor exponent and it fits a
word, otherwise a floating-point number.  There is none if it is out of range. -/
def number? (l : Literal) : Option Number :=
  match l.fraction with
  | some digits => (l.parts.extended digits).scaled? l.exponent
  | none =>
    if l.exponent = none ∧ l.parts.exponent = 0 then
      some (.ofWhole l.negative l.parts.significand)
    else l.parts.scaled? l.exponent

end Literal

/-- The ways to write a number.  A natural number is written by its digits alone. -/
inductive SpellsNumber : List Char → Number → Prop
  | natural {digits : List Char} {n : ℕ} (h : Whole digits)
      (hvalue : Text.ofDigits 10 (digitValues digits) = n) (hfits : n < Text.wordLimit) :
    SpellsNumber digits (.natural n)
  | other {l : Literal} {number : Number} (h : l.WellFormed) (hnumber : l.number? = some number)
      (hother : ∀ n, number ≠ .natural n) : SpellsNumber l.text number

/-! ## Values -/

mutual

/-- The ways to write a value, without a gap around it, if `depth` more arrays and objects may be
opened. -/
inductive Spells : ℕ → Node → List Char → Prop
  | null {depth : ℕ} : Spells depth .null ['n', 'u', 'l', 'l']
  | true {depth : ℕ} : Spells depth (.boolean true) ['t', 'r', 'u', 'e']
  | false {depth : ℕ} : Spells depth (.boolean false) ['f', 'a', 'l', 's', 'e']
  | number {depth : ℕ} {cs : List Char} {n : Number} (h : SpellsNumber cs n) :
    Spells depth (.number n) cs
  | text {depth : ℕ} {cs : List Char} {s : String} (h : SpellsText cs s) :
    Spells depth (.text s) ('"' :: cs)
  | array {depth : ℕ} {items : Items} {cs : List Char} (h : SpellsItems depth true items cs) :
    Spells (depth + 1) (.array items) ('[' :: cs)
  | object {depth : ℕ} {members : Members} {cs : List Char}
      (h : SpellsMembers depth true members cs) :
    Spells (depth + 1) (.object members) ('{' :: cs)

/-- The ways to write items up to the bracket that closes them, from the start of an array or from
behind an item. -/
inductive SpellsItems : ℕ → Bool → Items → List Char → Prop
  | closed {depth : ℕ} {atStart : Bool} {gap : List Char} (hgap : Gap gap) :
    SpellsItems depth atStart .closed (gap ++ [']'])
  | first {depth : ℕ} {gap cs rest : List Char} {value : Node} {items : Items} (hgap : Gap gap)
      (hvalue : Spells depth value cs) (hrest : SpellsItems depth false items rest) :
    SpellsItems depth true (.item value items) (gap ++ cs ++ rest)
  | next {depth : ℕ} {gap gap' cs rest : List Char} {value : Node} {items : Items} (hgap : Gap gap)
      (hgap' : Gap gap') (hvalue : Spells depth value cs)
      (hrest : SpellsItems depth false items rest) :
    SpellsItems depth false (.item value items) (gap ++ ',' :: (gap' ++ cs ++ rest))

/-- The ways to write members up to the brace that closes them, from the start of an object or from
behind a member. -/
inductive SpellsMembers : ℕ → Bool → Members → List Char → Prop
  | closed {depth : ℕ} {atStart : Bool} {gap : List Char} (hgap : Gap gap) :
    SpellsMembers depth atStart .closed (gap ++ ['}'])
  | first {depth : ℕ} {gap cs rest : List Char} {key : String} {members : Members} (hgap : Gap gap)
      (hkey : SpellsText cs key) (hrest : SpellsMember depth key members rest) :
    SpellsMembers depth true members (gap ++ '"' :: (cs ++ rest))
  | next {depth : ℕ} {gap gap' cs rest : List Char} {key : String} {members : Members}
      (hgap : Gap gap) (hgap' : Gap gap') (hkey : SpellsText cs key)
      (hrest : SpellsMember depth key members rest) :
    SpellsMembers depth false members (gap ++ ',' :: (gap' ++ '"' :: (cs ++ rest)))

/-- The ways to write a member behind its key, and the members after it. -/
inductive SpellsMember : ℕ → String → Members → List Char → Prop
  | mk {depth : ℕ} {gap gap' cs rest : List Char} {key : String} {value : Node} {members : Members}
      (hgap : Gap gap) (hgap' : Gap gap') (hvalue : Spells depth value cs)
      (hrest : SpellsMembers depth false members rest) :
    SpellsMember depth key (.member key value members) (gap ++ ':' :: (gap' ++ cs ++ rest))

end

/-- The text is one value, with nothing but gaps around it. -/
def Writes (text : String) (node : Node) : Prop :=
  ∃ before cs after, Gap before ∧ Gap after ∧ Spells maxDepth node cs ∧
    text.toList = before ++ cs ++ after

end CacheModel.Json

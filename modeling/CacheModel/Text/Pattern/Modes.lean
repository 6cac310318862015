import CacheModel.Text.Alphanumeric
import CacheModel.Text.Blank
import CacheModel.Text.Numeral

/-!
# Modes and characters of patterns

How a pattern is read depends on modes, which are switched on and off inside the pattern by
letters.  A mode that only changes which texts are described is not kept.

Wide characters are those of the whole standard, narrow ones those of ASCII.  Tables of the
standard are not at hand: the wide cases, the wide classes that are named by one letter and the wide
bounds of words are unknown, and a pattern that needs one of them is not well formed.
-/

namespace CacheModel.Text.Pattern

/-! ## Modes -/

/-- How a stretch of a pattern is read. -/
structure Modes where
  /-- Upper and lower case are alike. -/
  anyCase : Bool
  /-- Characters and classes are wide. -/
  wide : Bool
  /-- Blanks and remarks may stand between the parts of the pattern. -/
  spaced : Bool
  deriving Repr, DecidableEq

namespace Modes

/-- The modes at the start of a pattern. -/
def usual : Modes :=
  { anyCase := false, wide := true, spaced := false }

/-- The letters of all modes. -/
def letters : List Char := ['i', 'm', 's', 'U', 'u', 'R', 'x']

/-- Whether a text switches modes: letters of modes and perhaps a hyphen, none of them twice, and
the hyphen not at the end. -/
def isSwitch (switch : List Char) : Bool :=
  switch.all (fun c => c == '-' || letters.contains c) &&
    switch.eraseDups.length == switch.length && switch.getLast? != some '-'

/-- What a switch makes of one mode: letters behind a hyphen switch it off. -/
def switched (switch : List Char) (letter : Char) (mode : Bool) : Bool :=
  if !switch.contains letter then mode else (switch.takeWhile (fun c => c != '-')).contains letter

/-- The modes behind a switch. -/
def apply (modes : Modes) (switch : List Char) : Modes :=
  { anyCase := switched switch 'i' modes.anyCase
    wide := switched switch 'u' modes.wide
    spaced := switched switch 'x' modes.spaced }

@[simp] theorem apply_nil (modes : Modes) : modes.apply [] = modes := rfl

/-- Whether a character may stand for itself; its other case would have to be known. -/
def allowsCharacter (modes : Modes) : Bool :=
  !(modes.wide && modes.anyCase)

/-- Whether a class may have a member. -/
def allowsMember (modes : Modes) (c : Char) : Bool :=
  if modes.wide then !modes.anyCase else decide (c.toNat < 0x80)

/-- Whether a class that is named by one letter may be used.  Everything but a narrow class has wide
members. -/
def allowsShorthand (modes : Modes) (negated : Bool) : Bool :=
  !modes.wide && !negated

/-- Whether a named class of ASCII may be a member of a class. -/
def allowsNamed (modes : Modes) (negated : Bool) : Bool :=
  if modes.wide then !modes.anyCase else !negated

/-- Whether a class may stand for everything that is not in it. -/
def allowsNegation (modes : Modes) : Bool :=
  modes.wide

end Modes

/-! ## Space between the parts -/

/-- The text behind blanks and remarks; a remark reaches from a number sign to the end of the
line. -/
def skipRemarks : Bool → List Char → List Char
  | _, [] => []
  | true, c :: cs => skipRemarks (c != '\n') cs
  | false, c :: cs =>
    if c == '#' then skipRemarks true cs
    else if isBlank c then skipRemarks false cs
    else c :: cs

/-- The text behind the space that may stand here. -/
def skipSpace (modes : Modes) (cs : List Char) : List Char :=
  if modes.spaced then skipRemarks false cs else cs

@[simp] theorem skipRemarks_nil (inside : Bool) : skipRemarks inside [] = [] := by
  cases inside <;> rfl

@[simp] theorem skipSpace_nil (modes : Modes) : skipSpace modes [] = [] := by
  simp [skipSpace]

theorem length_skipRemarks_le (inside : Bool) (cs : List Char) :
    (skipRemarks inside cs).length ≤ cs.length := by
  fun_induction skipRemarks inside cs with
  | case1 => exact Nat.le_refl _
  | case2 c cs ih => exact Nat.le_succ_of_le ih
  | case3 c cs _ ih => exact Nat.le_succ_of_le ih
  | case4 c cs _ _ ih => exact Nat.le_succ_of_le ih
  | case5 => exact Nat.le_refl _

/-- Skipping space adds nothing to the text. -/
theorem length_skipSpace_le (modes : Modes) (cs : List Char) :
    (skipSpace modes cs).length ≤ cs.length := by
  unfold skipSpace
  split
  · exact length_skipRemarks_le false cs
  · exact Nat.le_refl _

/-- The next character behind blanks, among which one number sign does not count. -/
def peekSpaced? (modes : Modes) (cs : List Char) : Option Char :=
  if modes.spaced then
    match trimStart cs with
    | '#' :: cs => (trimStart cs).head?
    | cs => cs.head?
  else cs.head?

/-! ## Escapes -/

/-- What a backslash with the characters behind it stands for. -/
inductive Escape where
  | character (c : Char)
  /-- A character that is given by two digits, which is a byte among narrow characters. -/
  | byte (c : Char)
  /-- An end of the text. -/
  | anchor
  /-- An end of a word, or a place inside of one. -/
  | bound
  /-- A class that is named by one letter. -/
  | shorthand (negated : Bool)
  deriving Repr, DecidableEq

/-- Digits of base sixteen, as many as are asked for. -/
def readDigits (modes : Modes) : Nat → List Char → Option (List Nat × List Char)
  | 0, cs => some ([], cs)
  | count + 1, cs =>
    match skipSpace modes cs with
    | [] => none
    | c :: cs => do
      let digit ← hexDigit? c
      let (digits, rest) ← readDigits modes count cs
      return (digit :: digits, rest)

/-- A character given by exactly `count` digits of base sixteen. -/
def readNumbered (modes : Modes) (count : Nat) (cs : List Char) : Option (Char × List Char) := do
  let (digits, rest) ← readDigits modes count cs
  let n := ofDigits 16 digits
  if n < 0xD800 ∨ 0xDFFF < n ∧ n < 0x110000 then return (Char.ofNat n, rest) else none

/-- Whether a backslash takes the special meaning from this character. -/
def isEscapable (c : Char) : Bool :=
  decide (c.toNat < 0x80) && !c.isAlphanum && c != '<' && c != '>'

/-- Reads what stands behind a backslash. -/
def readEscape (modes : Modes) : List Char → Option (Escape × List Char)
  | [] => none
  | 'x' :: cs => (readNumbered modes 2 cs).map fun (c, rest) => (.byte c, rest)
  | 'u' :: cs => (readNumbered modes 4 cs).map fun (c, rest) => (.character c, rest)
  | 'U' :: cs => (readNumbered modes 8 cs).map fun (c, rest) => (.character c, rest)
  | 'a' :: cs => some (.character '\x07', cs)
  | 'f' :: cs => some (.character '\x0c', cs)
  | 't' :: cs => some (.character '\t', cs)
  | 'n' :: cs => some (.character '\n', cs)
  | 'r' :: cs => some (.character '\r', cs)
  | 'v' :: cs => some (.character '\x0b', cs)
  | 'A' :: cs => some (.anchor, cs)
  | 'z' :: cs => some (.anchor, cs)
  | c :: cs =>
    if ['b', 'B', '<', '>'].contains c then some (.bound, cs)
    else if ['d', 's', 'w'].contains c then some (.shorthand false, cs)
    else if ['D', 'S', 'W'].contains c then some (.shorthand true, cs)
    else if isEscapable c then some (.character c, cs)
    else none

/-- Whether an escape may stand outside of classes. -/
def Modes.allowsEscape (modes : Modes) : Escape → Bool
  | .character _ => modes.allowsCharacter
  | .byte c => modes.allowsCharacter && (modes.wide || decide (c.toNat < 0x80))
  | .anchor => true
  | .bound => !modes.wide
  | .shorthand negated => modes.allowsShorthand negated

/-! ## Nesting -/

/-- How deep parts are nested that stand side by side.  Two or more of them together are a level of
their own. -/
def nesting : List Nat → Nat
  | [] => 0
  | [depth] => depth
  | depths => depths.foldl Nat.max 0 + 1

@[simp] theorem nesting_nil : nesting [] = 0 := rfl

@[simp] theorem nesting_singleton (depth : Nat) : nesting [depth] = depth := rfl

end CacheModel.Text.Pattern

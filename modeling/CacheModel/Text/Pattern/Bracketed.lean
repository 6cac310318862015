import CacheModel.Text.Pattern.Modes

/-!
# Classes of characters

A class is spelled out between brackets: single characters, ranges, named classes of ASCII and
further classes in brackets.  Two signs between members that are the same stand for what two classes
have in common, for their difference or for what only one of them has.
-/

namespace CacheModel.Text.Pattern

/-- The named classes. -/
def classNames : List (List Char) :=
  ["alnum".toList, "alpha".toList, "ascii".toList, "blank".toList, "cntrl".toList, "digit".toList,
   "graph".toList, "lower".toList, "print".toList, "punct".toList, "space".toList, "upper".toList,
   "word".toList, "xdigit".toList]

/-- A caret at the start, and the text behind it. -/
def readCaret : List Char → Bool × List Char
  | '^' :: cs => (true, cs)
  | cs => (false, cs)

/-- Reads a named class whose opening bracket has been read; the answer says whether it is
negated. -/
def readNamed : List Char → Option (Bool × List Char)
  | ':' :: cs =>
    let (negated, cs) := readCaret cs
    match cs.dropWhile (fun c => c != ':') with
    | ':' :: ']' :: rest =>
      if classNames.contains (cs.takeWhile (fun c => c != ':')) then some (negated, rest) else none
    | _ => none
  | _ => none

/-- The text behind an opening bracket and a caret. -/
def openClass? (modes : Modes) (cs : List Char) : Option (List Char) :=
  let (negated, rest) := readCaret (skipSpace modes cs)
  if negated && !modes.allowsNegation then none else some rest

/-- Reads a character or an escape inside of a class. -/
def readMember (modes : Modes) : List Char → Option (Escape × List Char)
  | [] => none
  | '\\' :: cs => readEscape modes cs
  | c :: cs => some (.character c, cs)

/-- The character that an escape stands for, if it may be a member of a class. -/
def Modes.member? (modes : Modes) : Escape → Option Char
  | .character c => if modes.allowsMember c then some c else none
  | .byte c => if modes.allowsMember c then some c else none
  | _ => none

/-- Whether an escape may stand in a class for itself. -/
def Modes.allowsAlone (modes : Modes) : Escape → Bool
  | .shorthand negated => modes.allowsShorthand negated
  | escape => (modes.member? escape).isSome

/-- The text behind one member of a class or behind a range, which has to go upwards.  A hyphen
makes a range unless a closing bracket or another hyphen follows it. -/
def skipMember? (modes : Modes) (cs : List Char) : Option (List Char) := do
  let (first, rest) ← readMember modes cs
  let rest := skipSpace modes rest
  let alone := if modes.allowsAlone first then some rest else none
  match rest with
  | '-' :: behind =>
    if peekSpaced? modes behind == some ']' || peekSpaced? modes behind == some '-' then alone
    else do
      let (last, rest) ← readMember modes (skipSpace modes behind)
      let first ← modes.member? first
      let last ← modes.member? last
      if first.toNat ≤ last.toNat then return rest else none
  | _ => alone

/-- A class of which some members have been read. -/
structure OpenClass where
  /-- Only hyphens have been read, which stand for themselves here, as does a closing bracket in
  front of all else. -/
  atStart : Bool
  /-- How deep the class in front of the last pair of signs is nested. -/
  left : Option Nat
  /-- How deep the members behind this pair are nested. -/
  members : List Nat
  deriving Repr, DecidableEq

namespace OpenClass

/-- A class without members. -/
def empty : OpenClass :=
  { atStart := true, left := none, members := [] }

/-- How deep the members are nested so far. -/
def depth (c : OpenClass) : Nat :=
  nesting (c.left.toList ++ [nesting c.members])

/-- One more member. -/
def add (c : OpenClass) (depth : Nat) : OpenClass :=
  { c with atStart := false, members := depth :: c.members }

/-- The members so far are combined with what follows. -/
def combine (c : OpenClass) : OpenClass :=
  { atStart := false, left := some c.depth, members := [] }

end OpenClass

/-- Reads the rest of a class and its closing bracket; the answer says how deep the members are
nested. -/
def readClass (modes : Modes) : Nat → OpenClass → List Char → Option (Nat × List Char)
  | 0, _, _ => none
  | fuel + 1, c, cs =>
    match skipSpace modes cs with
    | [] => none
    | ']' :: rest =>
      if !(c.atStart && c.members.isEmpty) then some (c.depth, rest)
      else if modes.allowsMember ']' then readClass modes fuel (c.add 0) rest
      else none
    | '[' :: inner =>
      match readNamed inner with
      | some (negated, rest) =>
        if modes.allowsNamed negated then readClass modes fuel (c.add 0) rest else none
      | none => do
        let inner ← openClass? modes inner
        let (depth, rest) ← readClass modes fuel .empty inner
        readClass modes fuel (c.add (depth + 1)) rest
    | '&' :: '&' :: rest => readClass modes fuel c.combine rest
    | '~' :: '~' :: rest => readClass modes fuel c.combine rest
    | cs =>
      match c.atStart, cs with
      | true, '-' :: rest =>
        if modes.allowsMember '-' then readClass modes fuel { c.add 0 with atStart := true } rest
        else none
      | false, '-' :: '-' :: rest => readClass modes fuel c.combine rest
      | _, cs => (skipMember? modes cs).bind (readClass modes fuel (c.add 0))

/-- Reads a class behind its opening bracket.  Each step takes at least one character. -/
def readBracketed (modes : Modes) (cs : List Char) : Option (Nat × List Char) :=
  (openClass? modes cs).bind (readClass modes (cs.length + 1) .empty)

end CacheModel.Text.Pattern

import CacheModel.Text.Pattern.Bracketed

/-!
# Patterns

A pattern describes texts by alternatives of characters, classes of characters, anchors and groups,
each of which may be repeated.  What is decided here is whether a text is well formed as a pattern,
not which texts it describes.

Groups may have names, none of them twice, and may switch modes.  Repetitions with a count and
patterns that look ahead or refer back are not well formed, and neither are patterns that are nested
too deeply.
-/

namespace CacheModel.Text

namespace Pattern

/-- The most levels that may be nested. -/
def maxNesting : Nat := 250

/-! ## Groups -/

/-- Whether these characters can name a group. -/
def isGroupName : List Char → Bool
  | [] => false
  | c :: cs =>
    (c == '_' || isAlphabetic c) &&
      cs.all fun c => c == '_' || c == '.' || c == '[' || c == ']' || isAlphanumeric c

/-- What an opening parenthesis begins. -/
inductive Opening where
  /-- Other modes for the rest of the group around it. -/
  | modes (modes : Modes)
  /-- A group, perhaps with a name. -/
  | group (modes : Modes) (name : Option (List Char))
  deriving Repr, DecidableEq

/-- Reads the name of a group. -/
def readName (modes : Modes) (cs : List Char) : Option (Opening × List Char) :=
  let name := cs.takeWhile (fun c => c != '>')
  match cs.dropWhile (fun c => c != '>') with
  | _ :: rest => if isGroupName name then some (.group modes (some name), rest) else none
  | [] => none

/-- Reads a switch of modes: in front of a colon it is for the group that begins here, otherwise
for the rest of the group around it. -/
def readSwitch (modes : Modes) (cs : List Char) : Option (Opening × List Char) :=
  let switch := cs.takeWhile (fun c => c != ':' && c != ')')
  if !Modes.isSwitch switch then none
  else match cs.dropWhile (fun c => c != ':' && c != ')') with
    | ':' :: rest => some (.group (modes.apply switch) none, rest)
    | ')' :: rest => if switch.isEmpty then none else some (.modes (modes.apply switch), rest)
    | _ => none

/-- Reads what stands behind an opening parenthesis. -/
def readOpening (modes : Modes) (cs : List Char) : Option (Opening × List Char) :=
  match skipSpace modes cs with
  | '?' :: '<' :: cs => readName modes cs
  | '?' :: 'P' :: '<' :: cs => readName modes cs
  | '?' :: cs => readSwitch modes cs
  | cs => some (.group modes none, cs)

/-! ## Alternatives -/

/-- A part of an alternative. -/
inductive Part where
  /-- A switch of modes, which cannot be repeated. -/
  | switch
  /-- Anything else, with the depth to which it is nested. -/
  | expression (depth : Nat)
  deriving Repr, DecidableEq

/-- How deep a part is nested. -/
def Part.depth : Part → Nat
  | switch => 0
  | expression depth => depth

/-- Alternatives of which some have been read. -/
structure OpenGroup where
  modes : Modes
  /-- The names of groups anywhere in front. -/
  names : List (List Char)
  /-- How deep the alternatives in front of the last bar are nested. -/
  closed : List Nat
  /-- The parts of the last alternative, the last one first. -/
  parts : List Part
  deriving Repr, DecidableEq

namespace OpenGroup

/-- The start of a group. -/
def start (modes : Modes) (names : List (List Char)) : OpenGroup :=
  { modes, names, closed := [], parts := [] }

/-- How deep the last alternative is nested. -/
def lastDepth (g : OpenGroup) : Nat :=
  nesting (g.parts.map Part.depth)

/-- How deep the alternatives are nested. -/
def depth (g : OpenGroup) : Nat :=
  nesting (g.lastDepth :: g.closed)

/-- One more part of the last alternative. -/
def add (g : OpenGroup) (depth : Nat) : OpenGroup :=
  { g with parts := .expression depth :: g.parts }

/-- One more part, if the modes allow it. -/
def addIf (g : OpenGroup) (allowed : Bool) : Option OpenGroup :=
  if allowed then some (g.add 0) else none

/-- Another alternative. -/
def alternate (g : OpenGroup) : OpenGroup :=
  { g with closed := g.lastDepth :: g.closed, parts := [] }

/-- Other modes from here on. -/
def switch (g : OpenGroup) (modes : Modes) : OpenGroup :=
  { g with modes, parts := .switch :: g.parts }

/-- The name of a group, which has to be a new one. -/
def name? (g : OpenGroup) : Option (List Char) → Option (List (List Char))
  | none => some g.names
  | some name => if g.names.contains name then none else some (name :: g.names)

/-- The last part is repeated. -/
def repeated? (g : OpenGroup) : Option OpenGroup :=
  match g.parts with
  | .expression depth :: parts => some { g with parts := .expression (depth + 1) :: parts }
  | _ => none

/-- A group inside has been read. -/
def addGroup (g inner : OpenGroup) : OpenGroup :=
  { g with names := inner.names, parts := .expression (inner.depth + 1) :: g.parts }

end OpenGroup

/-- The text behind a sign that a repetition is to be short. -/
def skipShort : List Char → List Char
  | '?' :: cs => cs
  | cs => cs

/-- Reads a part that is neither a group nor repeated. -/
def readSimple (g : OpenGroup) : List Char → Option (OpenGroup × List Char)
  | [] => none
  | '[' :: cs => (readBracketed g.modes cs).map fun (depth, rest) => (g.add (depth + 1), rest)
  | '\\' :: cs => do
    let (escape, rest) ← readEscape g.modes cs
    let g ← g.addIf (g.modes.allowsEscape escape)
    return (g, rest)
  | '.' :: cs => (g.addIf g.modes.wide).map fun g => (g, cs)
  | '^' :: cs => some (g.add 0, cs)
  | '$' :: cs => some (g.add 0, cs)
  | _ :: cs => (g.addIf g.modes.allowsCharacter).map fun g => (g, cs)

/-- Reads alternatives up to a closing parenthesis or the end of the text. -/
def readAlternatives : Nat → OpenGroup → List Char → Option (OpenGroup × List Char)
  | 0, _, _ => none
  | fuel + 1, g, cs =>
    match skipSpace g.modes cs with
    | [] => some (g, [])
    | ')' :: rest => some (g, ')' :: rest)
    | '|' :: rest => readAlternatives fuel g.alternate rest
    | '*' :: rest => g.repeated?.bind fun g => readAlternatives fuel g (skipShort rest)
    | '+' :: rest => g.repeated?.bind fun g => readAlternatives fuel g (skipShort rest)
    | '?' :: rest => g.repeated?.bind fun g => readAlternatives fuel g (skipShort rest)
    | '{' :: _ => none
    | '(' :: rest =>
      match readOpening g.modes rest with
      | none => none
      | some (.modes modes, rest) => readAlternatives fuel (g.switch modes) rest
      | some (.group modes name, rest) => do
        let names ← g.name? name
        match ← readAlternatives fuel (.start modes names) rest with
        | (inner, ')' :: rest) => readAlternatives fuel (g.addGroup inner) rest
        | _ => none
    | cs => (readSimple g cs).bind fun (g, rest) => readAlternatives fuel g rest

end Pattern

/-- Whether a text is well formed as a pattern.  Each step of reading takes at least one
character. -/
def isPattern (cs : List Char) : Bool :=
  match Pattern.readAlternatives (cs.length + 1) (.start .usual []) cs with
  | some (g, []) => decide (g.depth ≤ Pattern.maxNesting)
  | _ => false

end CacheModel.Text

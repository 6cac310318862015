import CacheModel.Log.Filter
import CacheModel.Text.Alphanumeric
import CacheModel.Text.Blank
import CacheModel.Text.Numeral
import CacheModel.Text.Pattern

/-!
# Texts of filters

A filter text has clauses with commas between them.  A clause is a rank or a topic alone, or a
topic, or brackets, or a topic with brackets, with a rank behind an equals sign.  A clause without a
rank lets everything through.  Between the brackets stand the name of a scope and, in braces, the
name of a part of an event, perhaps with a pattern for its value.

No event happens inside a scope, and the parts of an event are asked for by name only.  So a clause
with a scope or with a pattern is read but decides nothing.

A clause is taken apart without the blanks around it, and then its pieces are cut out of the clause
as it was given, at the same distances from its start.  Hence blanks behind a clause belong to its
last piece, and blanks in front of it shift all pieces.
-/

namespace CacheModel.Log

/-! ## Ranks -/

/-- The highest rank, which lets everything through. -/
def allRanks : Nat := 5

/-- The words that name a rank, in lower case. -/
def rankWords : List (List Char × Nat) :=
  [("off".toList, 0), ("error".toList, 1), ("warn".toList, 2), ("info".toList, 3),
   ("debug".toList, 4), ("trace".toList, 5)]

/-- The rank that a number up to five or a word, in any mixture of cases, names. -/
def rank? (cs : List Char) : Option Nat :=
  match (Text.unsigned? 10 cs).filter (· ≤ allRanks) with
  | some rank => some rank
  | none => rankWords.lookup (cs.map Char.toLower)

/-! ## Pieces -/

/-- A piece of a text, by the distances of its ends from the start of the text, in bytes. -/
structure Piece where
  start : Nat
  stop : Nat
  deriving Repr, DecidableEq

namespace Piece

/-- The number of bytes that characters take. -/
def bytes : List Char → Nat
  | [] => 0
  | c :: cs => c.utf8Size + bytes cs

/-- The piece that `cs` is if it begins at `start`. -/
def ofLength (start : Nat) (cs : List Char) : Piece :=
  { start, stop := start + bytes cs }

/-- The characters behind the first `n` bytes; none if a character lies across this place. -/
def skip? : Nat → List Char → Option (List Char)
  | 0, cs => some cs
  | _ + 1, [] => none
  | n + 1, c :: cs => if c.utf8Size ≤ n + 1 then skip? (n + 1 - c.utf8Size) cs else none

/-- The characters in the first `n` bytes; none if a character lies across this place. -/
def keep? : Nat → List Char → Option (List Char)
  | 0, _ => some []
  | _ + 1, [] => none
  | n + 1, c :: cs =>
    if c.utf8Size ≤ n + 1 then (keep? (n + 1 - c.utf8Size) cs).map (c :: ·) else none

/-- The piece of a text. -/
def cut? (piece : Piece) (text : List Char) : Option (List Char) :=
  (skip? piece.start text).bind (keep? (piece.stop - piece.start))

@[simp] theorem skip?_zero (cs : List Char) : skip? 0 cs = some cs := by
  cases cs <;> rfl

@[simp] theorem keep?_zero (cs : List Char) : keep? 0 cs = some [] := by
  cases cs <;> rfl

/-- What stands behind the bytes of some characters is the rest of the text. -/
theorem skip?_bytes (front rest : List Char) :
    skip? (bytes front) (front ++ rest) = some rest := by
  induction front with
  | nil => simp [bytes]
  | cons c cs ih =>
    obtain ⟨n, hn⟩ : ∃ n, bytes (c :: cs) = n + 1 :=
      Nat.exists_eq_add_one.2 (Nat.add_pos_left c.utf8Size_pos _)
    have hc : bytes (c :: cs) = c.utf8Size + bytes cs := rfl
    rw [hn, List.cons_append, skip?, if_pos (by omega),
      show n + 1 - c.utf8Size = bytes cs by omega, ih]

/-- The bytes of some characters hold just these characters. -/
theorem keep?_bytes (front rest : List Char) :
    keep? (bytes front) (front ++ rest) = some front := by
  induction front with
  | nil => simp [bytes]
  | cons c cs ih =>
    obtain ⟨n, hn⟩ : ∃ n, bytes (c :: cs) = n + 1 :=
      Nat.exists_eq_add_one.2 (Nat.add_pos_left c.utf8Size_pos _)
    have hc : bytes (c :: cs) = c.utf8Size + bytes cs := rfl
    rw [hn, List.cons_append, keep?, if_pos (by omega),
      show n + 1 - c.utf8Size = bytes cs by omega, ih, Option.map_some]

/-- Characters are cut out where they stand. -/
theorem cut?_ofLength (front middle rest : List Char) :
    (ofLength (bytes front) middle).cut? (front ++ (middle ++ rest)) = some middle := by
  simp [cut?, ofLength, skip?_bytes, keep?_bytes]

end Piece

/-! ## The outline of a clause -/

/-- Which pieces a clause has, and where its rank begins. -/
structure Outline where
  topic : Option Piece
  scope : Option Piece
  part : Option Piece
  rank : Option Nat
  deriving Repr, DecidableEq

namespace Outline

/-- What may follow the brackets: nothing, or an equals sign in front of a rank. -/
def close? (outline : Outline) (place : Nat) : List Char → Option Outline
  | [] => some outline
  | '=' :: _ => some { outline with rank := some (place + 1) }
  | _ => none

/-- The outline from the opening bracket on; `place` lies behind the bracket.  A part has a name,
while a scope without one counts only if it is alone between the brackets. -/
def ofBrackets? (topic : Option Piece) (place : Nat) (cs : List Char) : Option Outline :=
  let name := cs.takeWhile (fun c => c != ']' && c != '{')
  let scope := Piece.ofLength place name
  match cs.dropWhile (fun c => c != ']' && c != '{') with
  | ']' :: rest =>
    close? { topic, scope := some scope, part := none, rank := none } (scope.stop + 1) rest
  | '{' :: inner =>
    let text := inner.takeWhile (fun c => c != '}')
    let part := Piece.ofLength (scope.stop + 1) text
    match inner.dropWhile (fun c => c != '}') with
    | '}' :: ']' :: rest =>
      if text.isEmpty then none
      else
        close?
          { topic, scope := if name.isEmpty then none else some scope, part := some part
            rank := none }
          (part.stop + 2) rest
    | _ => none
  | _ => none

/-- Whether a topic may begin with this character. -/
def opensTopic (c : Char) : Bool :=
  Text.isAlphanumeric c || c == '-' || c == ':' || c == '_'

/-- The outline of a clause without blanks around it.  A rank or a topic alone is no piece: it is
the whole clause. -/
def ofText? : List Char → Option Outline
  | [] => none
  | '[' :: inner => ofBrackets? none 1 inner
  | c :: cs =>
    if !opensTopic c then none
    else
      let name := (c :: cs).takeWhile (fun c => c != '=' && c != '[')
      let topic := Piece.ofLength 0 name
      match (c :: cs).dropWhile (fun c => c != '=' && c != '[') with
      | '[' :: inner => ofBrackets? (some topic) (topic.stop + 1) inner
      | '=' :: _ =>
        some { topic := some topic, scope := none, part := none, rank := some (topic.stop + 1) }
      | _ => some { topic := none, scope := none, part := none, rank := none }

/-- Whether the clause is a rank or a topic alone. -/
def isBare (outline : Outline) : Bool :=
  outline.topic.isNone && outline.scope.isNone && outline.part.isNone

end Outline

/-! ## Clauses -/

/-- What a clause amounts to. -/
inductive Clause where
  | rule (decided : Rule)
  /-- The clause decides nothing. -/
  | idle
  deriving Repr, DecidableEq

namespace Clause

/-- The piece of a text, and nothing where the clause has no such piece. -/
def cut? (text : List Char) : Option Piece → Option (Option (List Char))
  | none => some none
  | some piece => (piece.cut? text).map some

/-- The rank that begins at some place; no text there lets everything through. -/
def rankAt? (text : List Char) : Option Nat → Option Nat
  | none => some allRanks
  | some place => (Piece.skip? place text).bind fun rank =>
    if rank.isEmpty then some allRanks else rank? rank

/-- The name in a part, and the pattern behind an equals sign if there is one. -/
def namePattern (part : List Char) : List Char × Option (List Char) :=
  (part.takeWhile (fun c => c != '='),
    (part.dropWhile (fun c => c != '=')).tail?.map (·.takeWhile (fun c => c != '=')))

/-- The words for numbers that have no digits, in lower case. -/
def numberWords : List (List Char) := ["inf".toList, "infinity".toList, "nan".toList]

/-- Whether values can be compared with a text: it is a number behind a plus sign or a pattern.
Numbers without this sign are patterns. -/
def isPattern : List Char → Bool
  | '+' :: cs => Text.isDecimal cs || numberWords.contains (cs.map Char.toLower)
  | cs => Text.isPattern cs

/-- A clause with a topic or a part, put together from its pieces.  A pattern has to be well
formed. -/
def ofPieces? (topic scope part : Option (List Char)) (rank : Nat) : Option Clause :=
  let named := part.map namePattern
  match named.bind Prod.snd with
  | some pattern => if isPattern pattern then some .idle else none
  | none =>
    if scope.isSome then some .idle
    else some (.rule { beginning := topic.getD [], part := named.map Prod.fst, rank })

/-- Reads a clause. -/
def ofText? (text : List Char) : Option Clause := do
  let outline ← Outline.ofText? (Text.trim text)
  if outline.isBare then
    match rank? text with
    | some rank => return .rule (.forTopics [] rank)
    | none => return .rule (.forTopics text allRanks)
  else
    let topic ← cut? text outline.topic
    let scope ← cut? text outline.scope
    let part ← cut? text outline.part
    let rank ← rankAt? text outline.rank
    ofPieces? topic scope part rank

/-- The rule of a clause that decides something. -/
def rule? : Clause → Option Rule
  | .rule decided => some decided
  | .idle => none

end Clause

namespace Filter

/-- Reads a filter text.  Without clauses it lets errors through. -/
def ofText? (text : String) : Option Filter :=
  match (Text.splitBy (· == ',') text.toList).filter (fun piece => !piece.isEmpty) with
  | [] => some errorsOnly
  | pieces => (pieces.mapM Clause.ofText?).map fun clauses =>
    (clauses.filterMap Clause.rule?).foldl add []

/-- The filter that a text asks for; the usual one if there is none or it cannot be read.  When
misses are reported they are always let through. -/
def choose (text : Option String) (logMisses : Bool) : Filter :=
  let filter := (text.bind ofText?).getD usual
  if logMisses then filter.withMisses else filter

end Filter

end CacheModel.Log

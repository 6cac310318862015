/-!
# Blanks, pieces and words

Text is read as a list of characters.  A blank is a character with the Unicode property
`White_Space`; a word is a longest stretch without blanks.
-/

namespace CacheModel.Text

/-- The characters with the Unicode property `White_Space`. -/
def isBlank (c : Char) : Bool :=
  (0x9 ≤ c.toNat && c.toNat ≤ 0xD) || c.toNat == 0x20 || c.toNat == 0x85 || c.toNat == 0xA0 ||
    c.toNat == 0x1680 || (0x2000 ≤ c.toNat && c.toNat ≤ 0x200A) || c.toNat == 0x2028 ||
    c.toNat == 0x2029 || c.toNat == 0x202F || c.toNat == 0x205F || c.toNat == 0x3000

/-- Everything that the core library counts as white space is a blank. -/
theorem isBlank_of_isWhitespace {c : Char} (h : c.isWhitespace = true) : isBlank c = true := by
  simp only [Char.isWhitespace, Bool.or_eq_true, decide_eq_true_eq] at h
  rcases h with ((rfl | rfl) | rfl) | rfl <;> decide

/-- `cs` without the blanks at its start. -/
def trimStart (cs : List Char) : List Char :=
  cs.dropWhile isBlank

/-- `cs` without the blanks at its end. -/
def trimEnd (cs : List Char) : List Char :=
  (cs.reverse.dropWhile isBlank).reverse

/-- `cs` without the blanks at either end. -/
def trim (cs : List Char) : List Char :=
  trimEnd (trimStart cs)

/-- Cuts a list at every element that satisfies `p`, dropping those elements.  There is one piece
more than there are cuts, so the empty list has one empty piece. -/
def splitBy {α : Type} (p : α → Bool) (xs : List α) : List (List α) :=
  xs.foldr (fun a pieces =>
    if p a then [] :: pieces
    else match pieces with
      | [] => [[a]]
      | piece :: rest => (a :: piece) :: rest) [[]]

@[simp] theorem splitBy_nil {α : Type} (p : α → Bool) : splitBy p [] = [[]] := rfl

theorem splitBy_cons_of_pos {α : Type} {p : α → Bool} {a : α} (h : p a = true) (xs : List α) :
    splitBy p (a :: xs) = [] :: splitBy p xs := by
  simp [splitBy, h]

theorem splitBy_ne_nil {α : Type} (p : α → Bool) (xs : List α) : splitBy p xs ≠ [] := by
  cases xs with
  | nil => simp
  | cons a xs =>
    simp only [splitBy, List.foldr_cons]
    split
    · simp
    · split <;> simp

/-- The longest stretches of `cs` without blanks, in order. -/
def words (cs : List Char) : List (List Char) :=
  (splitBy isBlank cs).filter (fun piece => !piece.isEmpty)

end CacheModel.Text

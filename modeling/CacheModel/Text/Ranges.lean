/-!
# Ranges of code points

A property of characters is kept as a table of ranges, each given by its first and its last code
point.
-/

namespace CacheModel.Text

/-- Whether a character lies in one of the ranges. -/
def inRanges (ranges : List (Nat × Nat)) (c : Char) : Bool :=
  ranges.any fun (first, last) => decide (first ≤ c.toNat) && decide (c.toNat ≤ last)

@[simp] theorem inRanges_nil (c : Char) : inRanges [] c = false := rfl

theorem inRanges_cons (first last : Nat) (ranges : List (Nat × Nat)) (c : Char) :
    inRanges ((first, last) :: ranges) c =
      (decide (first ≤ c.toNat) && decide (c.toNat ≤ last) || inRanges ranges c) := rfl

end CacheModel.Text

import CacheModel.Text.Blank

/-!
# Replacement policies by name

Which line leaves when a new one needs its place.  A policy has a one-letter code for geometry
texts, a title for reports and an identifier for structured data.
-/

namespace CacheModel

/-- The ways to choose the line that is replaced. -/
inductive Policy where
  /-- A drawn way, whether or not it holds a line. -/
  | random
  /-- An empty way first, then the line that was touched longest ago. -/
  | lru
  /-- An empty way first, then the line that was installed longest ago. -/
  | fifo
  deriving Repr, DecidableEq, Inhabited

namespace Policy

/-- The letter that stands for the policy in a geometry text. -/
def code : Policy → Char
  | random => 'R'
  | lru => 'L'
  | fifo => 'F'

/-- The name shown to people. -/
def title : Policy → String
  | random => "Random"
  | lru => "LRU"
  | fifo => "FIFO"

/-- The name used in structured data. -/
def identifier : Policy → String
  | random => "Random"
  | lru => "Lru"
  | fifo => "Fifo"

/-- Whether the policy orders lines by time stamps. -/
def isStamped : Policy → Bool
  | random => false
  | lru => true
  | fifo => true

/-- The upper-case words that name a policy. -/
def spellings : List (List Char × Policy) :=
  [(['R'], random), (['R', 'A', 'N', 'D', 'O', 'M'], random),
   (['L'], lru), (['L', 'R', 'U'], lru),
   (['F'], fifo), (['F', 'I', 'F', 'O'], fifo)]

/-- The policy named by a code or a name in any mixture of cases, with blanks around it. -/
def ofText? (cs : List Char) : Option Policy :=
  spellings.lookup ((Text.trim cs).map Char.toUpper)

@[simp] theorem ofText?_code (p : Policy) : ofText? [p.code] = some p := by
  cases p <;> rfl

end Policy

end CacheModel

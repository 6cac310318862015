import CacheModel.Event

/-!
# Filters of the log

A filter is a set of rules that let everything up to a rank through.  Each rule is for the topics
that begin with some text, and it may be confined to the events that have a part of some name.  Of
the rules that fit an event the most particular one decides: the one with the longest beginning,
and among these one that names a part.  An event that no rule fits is not shown.
-/

namespace CacheModel.Log

/-- Lets events up to a rank through, zero standing for none. -/
structure Rule where
  /-- What the topic has to begin with. -/
  beginning : List Char
  /-- The part that the event has to have. -/
  part : Option (List Char)
  rank : Nat
  deriving Repr, DecidableEq

namespace Rule

/-- The rule for all topics that begin with `beginning`. -/
def forTopics (beginning : List Char) (rank : Nat) : Rule :=
  { beginning, part := none, rank }

/-- Whether two rules are for the same events. -/
def isAlike (rule other : Rule) : Bool :=
  rule.beginning == other.beginning && rule.part == other.part

/-- Whether a rule fits an event. -/
def fits (rule : Rule) (event : Event) : Bool :=
  rule.beginning.isPrefixOf event.topic.toList &&
    rule.part.all fun part => event.partNames.contains (String.ofList part)

/-- Whether the part that one rule names comes before the part of the other: no part first, then
by the alphabet. -/
def partPrecedes : Option (List Char) → Option (List Char) → Bool
  | _, none => false
  | none, some _ => true
  | some part, some other => List.lex part other fun c d => decide (c.toNat < d.toNat)

/-- Whether `other` is more particular than `rule`. -/
def isOutdoneBy (rule other : Rule) : Bool :=
  decide (rule.beginning.length < other.beginning.length) ||
    rule.beginning.length == other.beginning.length && partPrecedes rule.part other.part

end Rule

/-- Rules for different events. -/
abbrev Filter := List Rule

namespace Filter

/-- Adds a rule, which replaces one for the same events. -/
def add (filter : Filter) (rule : Rule) : Filter :=
  rule :: filter.filter (fun other => !other.isAlike rule)

/-- The most particular rule. -/
def decisive? : Filter → Option Rule
  | [] => none
  | rule :: rest =>
    match decisive? rest with
    | none => some rule
    | some other => if rule.isOutdoneBy other then some other else some rule

/-- Whether the filter lets an event through. -/
def admits (filter : Filter) (event : Event) : Bool :=
  match decisive? (filter.filter fun rule => rule.fits event) with
  | some rule => decide (event.severity.rank ≤ rule.rank)
  | none => false

/-- The filter for events that are errors only. -/
def errorsOnly : Filter := [.forTopics [] Severity.error.rank]

/-- The filter that is used unless another one is asked for. -/
def usual : Filter := [.forTopics [] Severity.info.rank]

/-- The filter that also lets the reports of misses through. -/
def withMisses (filter : Filter) : Filter :=
  filter.add (.forTopics Event.missTopic.toList Severity.info.rank)

@[simp] theorem decisive?_nil : decisive? [] = none := rfl

@[simp] theorem admits_nil (event : Event) : admits [] event = false := rfl

end Filter

end CacheModel.Log

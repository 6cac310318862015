/-!
# Structured data as far as it can be read

A text of structured data is read from left to right, and a text that goes wrong is still
meaningful up to the place where it does.  So the reader returns a tree in which that place is a
leaf: a broken value, or a broken end of a list or of an object.  Whoever looks at the tree in the
order of the text meets the first problem of the text when he gets there, and a problem of content
further to the left wins over it.
-/

namespace CacheModel.Json

/-- How a text fails to be structured data. -/
inductive Fault where
  /-- Something stands where it must not. -/
  | misplaced
  /-- The text ends too early. -/
  | ended
  deriving Repr, DecidableEq

/-- What a broken value began as. -/
inductive Beginning where
  /-- No value begins here. -/
  | absent
  | word
  | number
  | text
  deriving Repr, DecidableEq

/-- A number: a whole one that fits a word, a negative whole one that fits a signed word, given
by its size, or any other. -/
inductive Number where
  | natural (n : Nat)
  | negative (n : Nat)
  | real (x : Float)

mutual

/-- A value, or what is left of one. -/
inductive Node where
  | null
  | boolean (b : Bool)
  | number (n : Number)
  | text (s : String)
  | array (items : Items)
  | object (members : Members)
  | broken (beginning : Beginning) (fault : Fault)

/-- The items of an array from some place on. -/
inductive Items where
  | closed
  | item (value : Node) (rest : Items)
  /-- After the opening bracket or an item there is neither a comma nor a closing bracket. -/
  | broken (fault : Fault)
  /-- A comma is followed by no item. -/
  | dangling (fault : Fault)

/-- The members of an object from some place on. -/
inductive Members where
  | closed
  | member (key : String) (value : Node) (rest : Members)
  /-- After the opening brace there is no key and no closing brace, or after a member there is
  neither a comma nor a closing brace. -/
  | broken (fault : Fault)
  /-- A comma is followed by no key. -/
  | dangling (fault : Fault)

end

mutual

/-- The first fault of a value, in the order of the text. -/
def Node.fault? : Node → Option Fault
  | .null => none
  | .boolean _ => none
  | .number _ => none
  | .text _ => none
  | .array items => items.fault?
  | .object members => members.fault?
  | .broken _ fault => some fault

/-- The first fault among items. -/
def Items.fault? : Items → Option Fault
  | .closed => none
  | .item value rest => value.fault? <|> rest.fault?
  | .broken fault => some fault
  | .dangling fault => some fault

/-- The first fault among members. -/
def Members.fault? : Members → Option Fault
  | .closed => none
  | .member _ value rest => value.fault? <|> rest.fault?
  | .broken fault => some fault
  | .dangling fault => some fault

end

/-- A text: the value at its start, and the fault behind that value if something follows it. -/
structure Document where
  value : Node
  trailing : Option Fault

/-- The members of an object as a list, up to the place where they break off. -/
def Members.toList : Members → List (String × Node)
  | .member key value rest => (key, value) :: rest.toList
  | _ => []

end CacheModel.Json

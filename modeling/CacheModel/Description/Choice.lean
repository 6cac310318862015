import CacheModel.Access
import CacheModel.Description.Error
import CacheModel.Json.Reader

/-!
# Choices in structured data

A choice is named by a text, or by an object that has the name as its only key, with null as the
value.  Letters count in the case in which they are listed.
-/

namespace CacheModel.Description

/-- Names for the values of a type, in the order in which they are listed. -/
abbrev Names (α : Type) := List (String × α)

/-- The value of a name. -/
def Names.find {α : Type} (names : Names α) (name : String) : Except Problem α :=
  match names.lookup name with
  | some a => .ok a
  | none => .error (.unknownChoice name (names.map Prod.fst))

/-- Refuses everything but null. -/
def readNothing : Json.Node → Except Error Unit
  | .null => .ok ()
  | .broken _ fault => .error (.notData fault)
  | found => .error (.unfit (.invalidType found .nothing))

/-- Refuses everything but the end of an object. -/
def readClosed : Json.Members → Except Error Unit
  | .closed => .ok ()
  | .broken fault => .error (.notData fault)
  | _ => .error (.notData .misplaced)

/-- What is wrong where a name should stand.  Only a text or an object could have been one, so that
a word or a number is out of place however it goes on. -/
def faultOfName (beginning : Json.Beginning) (fault : Json.Fault) : Json.Fault :=
  match beginning with
  | .word => .misplaced
  | .number => .misplaced
  | .absent => fault
  | .text => fault

/-- The choice that a value names. -/
def readChoice {α : Type} (names : Names α) : Json.Node → Except Error α
  | .text name => (names.find name).mapError .unfit
  | .object (.member name value rest) => do
    let choice ← (names.find name).mapError .unfit
    readNothing value
    readClosed rest
    return choice
  | .object (.broken fault) => .error (.notData fault)
  | .broken beginning fault => .error (.notData (faultOfName beginning fault))
  | _ => .error (.notData .misplaced)

/-- Nothing may follow the value of a document. -/
def finish {α : Type} (document : Json.Document) (a : α) : Except Error α :=
  match document.trailing with
  | some fault => .error (.notData fault)
  | none => .ok a

/-- The choice that a text of structured data names. -/
def choiceOfText {α : Type} (names : Names α) (text : String) : Except Error α := do
  let document := Json.readDocument text
  let choice ← readChoice names document.value
  finish document choice

/-- The names of policies in structured data. -/
def policyNames : Names Policy :=
  [("R", .random), ("RANDOM", .random), ("Random", .random), ("random", .random),
   ("L", .lru), ("LRU", .lru), ("Lru", .lru), ("lru", .lru),
   ("F", .fifo), ("FIFO", .fifo), ("Fifo", .fifo), ("fifo", .fifo)]

/-- The names of access kinds in structured data. -/
def accessKindNames : Names AccessKind :=
  [("fetch", .fetch), ("load", .load), ("store", .store)]

end CacheModel.Description

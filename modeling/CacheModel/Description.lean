import CacheModel.Description.Choice

/-!
# Descriptions of hierarchies

A hierarchy has an instruction cache, a data cache and a second level behind both, each of which
may be left out, and it may report all misses.  It is described by an object with the keys
`icache`, `dcache`, `l2` and `log_misses`, or by an array that has the same four values in this
order and may be cut short.

A level is a geometry text, or an object with the members `sets`, `ways` and `line_bytes` and
perhaps `policy`; null leaves it out.  A level is read completely before it is judged; apart from
that the first problem in the order of the text is reported.
-/

namespace CacheModel

/-- Which levels a hierarchy has, and whether it reports misses. -/
structure Description where
  icache : Option Geometry
  dcache : Option Geometry
  l2 : Option Geometry
  logMisses : Bool
  deriving Repr, DecidableEq

namespace Description

/-- No level, and no report of misses. -/
def empty : Description :=
  { icache := none, dcache := none, l2 := none, logMisses := false }

/-- Whether no level is described. -/
def isEmpty (d : Description) : Bool :=
  d.icache.isNone && d.dcache.isNone && d.l2.isNone

/-! ## Levels -/

/-- The only value of a key; none if the key is missing or stands there twice. -/
def only? (members : List (String × Json.Node)) (key : String) : Option Json.Node :=
  match members.filter (fun member => member.1 == key) with
  | [(_, value)] => some value
  | _ => none

/-- The natural number that is the only value of a key. -/
def onlyNatural? (members : List (String × Json.Node)) (key : String) : Option Nat :=
  match only? members key with
  | some (.number (.natural n)) => some n
  | _ => none

/-- The policy that a value inside a level names. -/
def policyOfNode? : Json.Node → Option Policy
  | .text name => policyNames.lookup name
  | .object (.member name .null .closed) => policyNames.lookup name
  | _ => none

/-- The policy among the members of a level: random if none is given. -/
def policyOfMembers? (members : List (String × Json.Node)) : Option Policy :=
  match members.filter (fun member => member.1 == "policy") with
  | [] => some .random
  | [(_, value)] => policyOfNode? value
  | _ => none

/-- The shape that the members of a level spell out, possible or not. -/
def shapeOfMembers? (members : List (String × Json.Node)) : Option Geometry := do
  let sets ← onlyNatural? members "sets"
  let ways ← onlyNatural? members "ways"
  let lineBytes ← onlyNatural? members "line_bytes"
  let policy ← policyOfMembers? members
  return { sets, ways, lineBytes, policy }

/-- The geometry that an unbroken value describes. -/
def judgeLevel : Json.Node → Except Problem Geometry
  | .text text => (Geometry.parse text).mapError .refused
  | .object members =>
    match shapeOfMembers? members.toList with
    | some shape => shape.check.mapError .refused
    | none => .error .noLevel
  | _ => .error .noLevel

/-- Reads a level: first all of it, then what it means. -/
def readLevel (node : Json.Node) : Except Error Geometry :=
  match node.fault? with
  | some fault => .error (.notData fault)
  | none => (judgeLevel node).mapError .unfit

/-- Reads a level that may be null. -/
def readOptionalLevel : Json.Node → Except Error (Option Geometry)
  | .null => .ok none
  | node => (readLevel node).map some

/-- Reads a truth value. -/
def readBoolean : Json.Node → Except Error Bool
  | .boolean b => .ok b
  | .broken _ fault => .error (.notData fault)
  | found => .error (.unfit (.invalidType found .boolean))

/-! ## Hierarchies -/

/-- The four things a description may give. -/
inductive Field where
  | icache
  | dcache
  | l2
  | logMisses
  deriving Repr, DecidableEq

/-- The fields in the order in which an array gives them. -/
def Field.all : List Field := [.icache, .dcache, .l2, .logMisses]

/-- The field that a key names. -/
def Field.ofKey? (key : String) : Option Field :=
  (knownKeys.zip all).lookup key

/-- Reads the value of a field into a description. -/
def readField (d : Description) (field : Field) (value : Json.Node) : Except Error Description :=
  match field with
  | .icache => (readOptionalLevel value).map fun level => { d with icache := level }
  | .dcache => (readOptionalLevel value).map fun level => { d with dcache := level }
  | .l2 => (readOptionalLevel value).map fun level => { d with l2 := level }
  | .logMisses => (readBoolean value).map fun logMisses => { d with logMisses }

/-- Reads the members of a description, some fields of which have been seen.  A key is judged
before its value is looked at. -/
def readMembers (seen : List Field) (d : Description) : Json.Members → Except Error Description
  | .closed => .ok d
  | .broken fault => .error (.notData fault)
  | .dangling fault => .error (.notData fault)
  | .member key value rest =>
    match Field.ofKey? key with
    | none => .error (.unfit (.unknownField key))
    | some field =>
      if field ∈ seen then .error (.unfit (.duplicateField key))
      else do
        let d ← readField d field value
        readMembers (field :: seen) d rest

/-- Reads the items of a description, which are the values of the given fields. -/
def readItems (fields : List Field) (d : Description) : Json.Items → Except Error Description
  | .closed => .ok d
  | .broken fault => .error (.notData fault)
  | .dangling fault => .error (.notData (if fields.isEmpty then .misplaced else fault))
  | .item value rest =>
    match fields with
    | [] => .error (.notData .misplaced)
    | field :: fields => do
      let d ← readField d field value
      readItems fields d rest

/-- Reads the value of a description. -/
def readNode : Json.Node → Except Error Description
  | .object members => readMembers [] empty members
  | .array items => readItems Field.all empty items
  | .broken _ fault => .error (.notData fault)
  | found => .error (.unfit (.invalidType found .hierarchy))

/-- Reads the text of a description. -/
def ofText (text : String) : Except Error Description := do
  let document := Json.readDocument text
  let d ← readNode document.value
  finish document d

/-- Reads the text of a single level. -/
def levelOfText (text : String) : Except Error Geometry := do
  let document := Json.readDocument text
  let level ← readLevel document.value
  finish document level

/-- Reads a description from the bytes of a file. -/
def ofBytes : Except ReadFailure ByteArray → Except Error Description
  | .error failure => .error (.unreadable failure)
  | .ok bytes =>
    match String.fromUTF8? bytes with
    | some text => ofText text
    | none => .error (.unreadable .notText)

end Description

end CacheModel

import CacheModel.Access
import CacheModel.Text.Blank
import CacheModel.Text.Numeral

/-!
# Lines of a trace

A line of a trace names one memory reference: its kind, its address and, if the usual eight bytes
are not meant, its size.  A number sign starts a comment.  A line without words names nothing.

The problems of a line are looked for in the order word count, kind, address, size, and the first
one is reported.
-/

namespace CacheModel.Trace

/-- The size of a reference that does not give one. -/
def defaultBytes : UInt64 := 8

/-- What is wrong with a line. -/
inductive LineError where
  /-- There are not two or three words; the content is the line without comment and outer blanks. -/
  | wordCount (content : String)
  | unknownKind (word : String)
  | invalidAddress (word : String)
  | invalidSize (word : String)
  deriving Repr, DecidableEq

/-- The sentence shown for a bad line. -/
def LineError.message : LineError → String
  | wordCount content => s!"expected `<op> <addr> [bytes]`, got `{content}`"
  | unknownKind word => s!"unknown access kind `{word}`"
  | invalidAddress word => s!"invalid address `{word}`"
  | invalidSize word => s!"invalid size `{word}`"

/-- The lower-case words that name a kind. -/
def kindSpellings : List (List Char × AccessKind) :=
  [(['i'], .fetch), (['f'], .fetch), (['f', 'e', 't', 'c', 'h'], .fetch),
   (['r'], .load), (['l'], .load), (['l', 'o', 'a', 'd'], .load),
   (['w'], .store), (['s'], .store), (['s', 't', 'o', 'r', 'e'], .store)]

/-- The kind that a word names, in any mixture of cases. -/
def kind? (word : List Char) : Option AccessKind :=
  kindSpellings.lookup (word.map Char.toLower)

/-- A number without its underscores. -/
def withoutUnderscores (cs : List Char) : List Char :=
  cs.filter (fun c => c != '_')

/-- The number that a word denotes: in base sixteen after `0x` or `0X` and in base ten otherwise,
with underscores anywhere. -/
def number? : List Char → Option UInt64
  | '0' :: 'x' :: digits => (Text.word64? 16 (withoutUnderscores digits)).map Nat.toUInt64
  | '0' :: 'X' :: digits => (Text.word64? 16 (withoutUnderscores digits)).map Nat.toUInt64
  | digits => (Text.word64? 10 (withoutUnderscores digits)).map Nat.toUInt64

/-- A line without its comment. -/
def withoutComment (line : List Char) : List Char :=
  line.takeWhile (fun c => c != '#')

/-- The reference named by a kind, an address and perhaps a size. -/
def ofWords (kind address : List Char) (bytes : Option (List Char)) : Except LineError Access :=
  match kind? kind with
  | none => .error (.unknownKind (String.ofList kind))
  | some kind =>
    match number? address with
    | none => .error (.invalidAddress (String.ofList address))
    | some address =>
      match bytes with
      | none => .ok { kind, address, bytes := defaultBytes }
      | some bytes =>
        match number? bytes with
        | none => .error (.invalidSize (String.ofList bytes))
        | some bytes => .ok { kind, address, bytes }

/-- The reference that a line names, if it names one. -/
def ofLine (line : String) : Except LineError (Option Access) :=
  let content := withoutComment line.toList
  match Text.words content with
  | [] => .ok none
  | [kind, address] => (ofWords kind address none).map some
  | [kind, address, bytes] => (ofWords kind address (some bytes)).map some
  | _ => .error (.wordCount (String.ofList (Text.trim content)))

end CacheModel.Trace

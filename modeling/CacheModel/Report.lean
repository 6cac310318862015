import CacheModel.Cache
import CacheModel.Decimal.Fixed
import CacheModel.Decimal.Shortest
import CacheModel.Text.Quoted

/-!
# Reports

The counters of one cache under its name, as text or as structured data.  The text leaves out a
cache that was never accessed; the structured form keeps it, with no miss rate.
-/

namespace CacheModel

/-- The counters of a cache together with its name. -/
structure Report where
  name : String
  counters : Counters
  deriving Repr, DecidableEq

namespace Report

/-- Labels fill a column of this width. -/
def labelWidth : Nat := 23

/-- `label` with blanks behind it, up to the width of the column. -/
def padLabel (label : String) : String :=
  label ++ String.ofList (List.replicate (labelWidth - label.length) ' ')

/-- The rows of the text: a label and a value each. -/
def rows (counters : Counters) (missRate : Float) : List (String × String) :=
  [("Bytes Read:", toString counters.bytesRead.toNat),
   ("Bytes Written:", toString counters.bytesWritten.toNat),
   ("Read Accesses:", toString counters.readAccesses.toNat),
   ("Write Accesses:", toString counters.writeAccesses.toNat),
   ("Read Misses:", toString counters.readMisses.toNat),
   ("Write Misses:", toString counters.writeMisses.toNat),
   ("Writebacks:", toString counters.writebacks.toNat),
   ("Miss Rate:", Decimal.fixed 3 (.ofBits missRate.toBits) ++ "%")]

/-- The report as text, one counter per line, each line opening with the name; none if the cache
was never accessed. -/
def text? (r : Report) : Option String :=
  r.counters.missRate?.map fun missRate =>
    String.join <| (rows r.counters missRate).map fun (label, value) =>
      r.name ++ " " ++ padLabel label ++ value ++ "\n"

theorem text?_eq_none_iff {r : Report} : r.text? = none ↔ r.counters.accesses = 0 := by
  simp [text?, Counters.missRate?_eq_none_iff]

/-! ## Structured data -/

/-- A miss rate as structured data. -/
def missRateText : Option Float → String
  | some missRate => Decimal.shortestText .standard (.ofBits missRate.toBits)
  | none => "null"

/-- The members of the structured form: a key and the text of its value. -/
def members (r : Report) : List (String × String) :=
  [("name", Text.quote r.name),
   ("bytes_read", toString r.counters.bytesRead.toNat),
   ("bytes_written", toString r.counters.bytesWritten.toNat),
   ("read_accesses", toString r.counters.readAccesses.toNat),
   ("write_accesses", toString r.counters.writeAccesses.toNat),
   ("read_misses", toString r.counters.readMisses.toNat),
   ("write_misses", toString r.counters.writeMisses.toNat),
   ("writebacks", toString r.counters.writebacks.toNat),
   ("miss_rate", missRateText r.counters.missRate?)]

/-- The structured form on one line, without blanks. -/
def compact (r : Report) : String :=
  "\x7b" ++ String.intercalate ","
    (r.members.map fun (key, value) => Text.quote key ++ ":" ++ value) ++ "\x7d"

/-- The structured form of several reports on one line. -/
def compactList (rs : List Report) : String :=
  "[" ++ String.intercalate "," (rs.map compact) ++ "]"

/-- One report inside a list that is spread over several lines. -/
def spread (r : Report) : String :=
  "  \x7b\n" ++ String.intercalate ",\n"
    (r.members.map fun (key, value) => "    " ++ Text.quote key ++ ": " ++ value) ++ "\n  \x7d"

/-- The structured form of several reports, spread over lines; an empty list is not spread. -/
def spreadList : List Report → String
  | [] => "[]"
  | rs => "[\n" ++ String.intercalate ",\n" (rs.map spread) ++ "\n]"

end Report

/-- The report of a cache. -/
def Cache.report (c : Cache) : Report :=
  { name := c.name, counters := c.counters }

end CacheModel

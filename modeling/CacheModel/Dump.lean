import CacheModel.Hierarchy
import CacheModel.Text.Exposed

/-!
# Full text of a state

Everything that a value holds, on one line: the name of the structure and its fields in order.
-/

namespace CacheModel.Dump

/-- A structure with named fields. -/
def record (name : String) (fields : List (String × String)) : String :=
  name ++ " \x7b " ++
    String.intercalate ", " (fields.map fun (key, value) => key ++ ": " ++ value) ++ " \x7d"

/-- Several values between brackets. -/
def sequence (values : List String) : String :=
  "[" ++ String.intercalate ", " values ++ "]"

/-- The entries of a map. -/
def mapping (entries : List (String × String)) : String :=
  "\x7b" ++ String.intercalate ", " (entries.map fun (key, value) => key ++ ": " ++ value) ++ "\x7d"

/-- A word as a number. -/
def word (n : UInt64) : String :=
  toString n.toNat

/-- A place for a line. -/
def line (l : Line) : String :=
  record "CacheLine"
    [("tag", word l.tag), ("valid", toString l.valid), ("dirty", toString l.dirty)]

/-- Places in order. -/
def lines (ls : Array Line) : String :=
  sequence (ls.toList.map line)

/-- A tag store with all its places; a map store shows its map from tags to places first. -/
def store : TagStore → String
  | .array s =>
    record "SetAssociativeStore" [("lines", lines s.lines), ("ways", toString s.ways)]
  | .map s =>
    record "FullyAssociativeStore"
      [("index", mapping (s.index.map fun (tag, place) => (word tag, toString place))),
       ("lines", lines s.lines), ("ways", toString s.ways)]

/-- A source of draws: the register, or how far a stream is spent. -/
def source : Source → String
  | .register state => record "Lfsr" [("reg", toString state.reg.toNat)]
  | .stream _ taken => record "Stream" [("taken", toString taken)]

/-- Stamps under the name of the policy that keeps them. -/
def stamps (name : String) (s : Stamps) : String :=
  record name
    [("stamps", sequence (s.stamps.toList.map word)), ("ways", toString s.ways),
     ("clock", word s.clock)]

/-- The replacement state of a cache. -/
def replacement : Replacement → String
  | .random ways draws =>
    record "RandomPolicy" [("ways", toString ways), ("source", source draws)]
  | .lru s => stamps "LruPolicy" s
  | .fifo s => stamps "FifoPolicy" s

/-- A geometry with the identifier of its policy. -/
def geometry (g : Geometry) : String :=
  record "CacheConfig"
    [("sets", toString g.sets), ("ways", toString g.ways), ("line_bytes", toString g.lineBytes),
     ("policy", g.policy.identifier)]

/-- All counters, in the order in which they are declared. -/
def counters (c : Counters) : String :=
  record "CacheStats"
    [("bytes_read", word c.bytesRead), ("bytes_written", word c.bytesWritten),
     ("read_accesses", word c.readAccesses), ("write_accesses", word c.writeAccesses),
     ("read_misses", word c.readMisses), ("write_misses", word c.writeMisses),
     ("writebacks", word c.writebacks)]

/-- A cache of a network, and whether anything lies below it. -/
def level (l : Level) : String :=
  record "CacheSim"
    [("name", Text.inspect l.cache.name), ("config", geometry l.cache.geometry),
     ("fully_associative", toString l.cache.isFullyAssociative), ("store", store l.cache.store),
     ("policy", replacement l.cache.replacement),
     ("has_miss_handler", toString l.next.isSome), ("log", toString l.cache.logsMisses),
     ("stats", counters l.cache.counters)]

/-- A level of a network that may be left out. -/
def optionalLevel (net : Network) (place : Option Nat) : String :=
  match place.bind (net.levels[·]?) with
  | some l => "Some(" ++ record "RefCell" [("value", level l)] ++ ")"
  | none => "None"

/-- A list of tracers, of which only the number is told. -/
def tracers (ts : List Tracer) : String :=
  record "MemTracerList" [("tracers", toString ts.length)]

/-- A hierarchy with its three levels, each of which may be missing. -/
def hierarchy (h : Hierarchy) : String :=
  record "CacheHierarchy"
    [("icache", optionalLevel h.network h.icache), ("dcache", optionalLevel h.network h.dcache),
     ("l2", optionalLevel h.network h.l2), ("tracers", tracers h.tracers)]

end CacheModel.Dump

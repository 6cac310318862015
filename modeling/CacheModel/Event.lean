import CacheModel.Geometry

/-!
# Events

What a simulation has to say while it runs.  Events are values: they are returned beside the
results, and whoever runs the simulation decides which of them are shown and how.
-/

namespace CacheModel

/-- One thing worth telling. -/
inductive Event where
  /-- A request missed in a cache that reports its misses. -/
  | missed (cache : String) (isWrite : Bool) (address : UInt64)
  /-- A dirty line was replaced. -/
  | wroteBack (cache : String) (address : UInt64)
  | built (cache : String) (geometry : Geometry) (isFullyAssociative : Bool)
  /-- The misses of one cache will be served by another. -/
  | attached (upper lower : String)
  | nothingConfigured
  | traceLoaded (accesses : Nat)
  deriving Repr, DecidableEq

/-- How much an event matters; the more it matters the lower its rank. -/
inductive Severity where
  | error
  | warn
  | info
  | debug
  | trace
  deriving Repr, DecidableEq

namespace Severity

/-- The position in the order of severities. -/
def rank : Severity → Nat
  | error => 1
  | warn => 2
  | info => 3
  | debug => 4
  | trace => 5

/-- The label in front of an event. -/
def label : Severity → String
  | error => "ERROR"
  | warn => "WARN"
  | info => "INFO"
  | debug => "DEBUG"
  | trace => "TRACE"

end Severity

/-- A named value that goes with an event; texts are told apart from values that are only shown. -/
inductive Detail where
  | shown (key value : String)
  | text (key value : String)
  deriving Repr, DecidableEq

/-- The name of the value. -/
def Detail.key : Detail → String
  | shown key _ => key
  | text key _ => key

namespace Event

/-- The topic under which misses are reported. -/
def missTopic : String := "cachesim::miss"

/-- How much the event matters. -/
def severity : Event → Severity
  | missed .. => .info
  | wroteBack .. => .debug
  | built .. => .debug
  | attached .. => .debug
  | nothingConfigured => .warn
  | traceLoaded _ => .debug

/-- The topic that the event belongs to, by which it can be selected. -/
def topic : Event → String
  | missed .. => missTopic
  | wroteBack .. => "cachesim_core::cache"
  | built .. => "cachesim_core::cache"
  | attached .. => "cachesim_core::sim::hierarchy"
  | nothingConfigured => "cachesim"
  | traceLoaded _ => "cachesim"

/-- An address as it is shown. -/
def showAddress (address : UInt64) : String :=
  "0x" ++ Text.hex address.toNat

/-- What happened, in words. -/
def message : Event → String
  | missed cache isWrite address =>
    cache ++ (if isWrite then " write" else " read") ++ " miss " ++ showAddress address
  | wroteBack _ address => "writeback " ++ showAddress address
  | built .. => "cache built"
  | attached .. => "miss handler attached"
  | nothingConfigured => "no cache level configured; nothing to simulate"
  | traceLoaded _ => "trace loaded"

/-- The named values that go with the message. -/
def details : Event → List Detail
  | missed .. => []
  | wroteBack cache _ => [.shown "cache" cache]
  | built cache geometry isFullyAssociative =>
    [.shown "cache" cache, .shown "geometry" geometry.render,
     .shown "fully_associative" (toString isFullyAssociative)]
  | attached upper lower => [.text "upper" upper, .text "lower" lower]
  | nothingConfigured => []
  | traceLoaded accesses => [.shown "accesses" (toString accesses)]

/-- The names under which the parts of an event can be asked for: the message and its values. -/
def partNames (event : Event) : List String :=
  "message" :: event.details.map Detail.key

end Event

end CacheModel

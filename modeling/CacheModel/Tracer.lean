import CacheModel.Access
import CacheModel.Network

/-!
# Routing references to caches

A tracer looks at memory references and decides which of them concern it.  One kind of tracer
passes fetches on to a cache, another one loads and stores, a third one only notes what falls into
its window, and a list shows each reference to those of its members that are interested.

Where a reference goes does not depend on the state of any cache.  So a tracer is a function from
references to the things to be done, and the network does them in order.
-/

namespace CacheModel

/-- Who looks at memory references. -/
inductive Tracer where
  /-- Passes fetches to the cache at a level. -/
  | fetches (level : Nat)
  /-- Passes loads and stores to the cache at a level. -/
  | data (level : Nat)
  /-- Notes references that meet the addresses from `low` up to `high`, which is left out. -/
  | window (low high : UInt64)
  | list (members : List Tracer)
  deriving Inhabited

/-- One thing to be done for a reference. -/
inductive Dispatch where
  | serve (level : Nat) (request : Request)
  | note (access : Access)
  deriving Repr, DecidableEq

/-- The end of a reference, which stays inside the address space. -/
def Access.limit (a : Access) : UInt64 :=
  if a.address.toNat + a.bytes.toNat < Text.wordLimit then a.address + a.bytes else 0 - 1

namespace Tracer

/-- Whether references of the given kind from `first` up to `limit` are of interest.  A list is
interested if one of its members is. -/
def isInterested (first limit : UInt64) (kind : AccessKind) : Tracer → Bool
  | fetches _ => kind == .fetch
  | data _ => kind != .fetch
  | window low high => decide (first < high) && decide (low < limit)
  | list members => anyInterested members
where
  anyInterested : List Tracer → Bool
    | [] => false
    | t :: rest => t.isInterested first limit kind || anyInterested rest

/-- What a tracer does with a reference that it is shown.  The cache tracers look at the kind
again, the window takes what it is shown, and a list asks its members first. -/
def dispatch (a : Access) : Tracer → List Dispatch
  | fetches level => if a.kind = .fetch then [.serve level a.request] else []
  | data level => if a.kind = .fetch then [] else [.serve level a.request]
  | window _ _ => [.note a]
  | list members => dispatchEach members
where
  dispatchEach : List Tracer → List Dispatch
    | [] => []
    | t :: rest =>
      (if t.isInterested a.address a.limit a.kind then t.dispatch a else []) ++ dispatchEach rest

end Tracer

namespace Network

/-- Does one thing for a reference. -/
def perform (net : Network) : Dispatch → Network × List Occurrence
  | .serve level request => net.access level request
  | .note _ => (net, [])

/-- Does several things in order. -/
def performAll (net : Network) (dispatches : List Dispatch) : Network × List Occurrence :=
  dispatches.foldl (fun (net, log) dispatch =>
    let (net, more) := net.perform dispatch
    (net, log ++ more)) (net, [])

/-- Shows a reference to a tracer. -/
def trace (net : Network) (tracer : Tracer) (a : Access) : Network × List Occurrence :=
  net.performAll (tracer.dispatch a)

end Network

/-- The references that were only noted. -/
def Dispatch.noted (dispatches : List Dispatch) : List Access :=
  dispatches.filterMap fun
    | .note access => some access
    | .serve _ _ => none

end CacheModel

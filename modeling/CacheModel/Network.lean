import CacheModel.Cache

/-!
# Caches behind one another

A network is a list of caches, each of which may send its misses to another one or to a recorder.
Several caches may share the one below them.  A request is carried out depth first: what a cache
sends down is served completely, level by level, before its next effect.

The wiring of a network has no cycle.  A request then passes each cache at most once on its way
down, so that the number of caches bounds the depth, and this bound is what the recursion runs on.
-/

namespace CacheModel

/-- Where the misses of a cache go. -/
inductive Link where
  | level (index : Nat)
  /-- A receiver that takes every request and answers nothing. -/
  | recorder
  deriving Repr, DecidableEq

/-- A cache and what lies below it. -/
structure Level where
  cache : Cache
  next : Option Link

/-- Caches with their wiring. -/
structure Network where
  levels : Array Level

/-- One entry in the account of what happens in a network. -/
inductive Occurrence where
  /-- The cache at `level` served a request. -/
  | served (level : Nat) (request : Request) (outcome : Outcome)
  | notice (event : Event)
  /-- The cache at `level` sent a request down a link. -/
  | forwarded (level : Nat) (link : Link) (request : Request)
  deriving Repr, DecidableEq

namespace Occurrence

/-- The events in an account, in order. -/
def events (log : List Occurrence) : List Event :=
  log.filterMap fun
    | notice event => some event
    | _ => none

/-- What the recorders received, each with the level that sent it. -/
def recorded (log : List Occurrence) : List (Nat × Request) :=
  log.filterMap fun
    | forwarded level .recorder request => some (level, request)
    | _ => none

/-- What became of the first request in an account. -/
def firstOutcome? (log : List Occurrence) : Option Outcome :=
  log.findSome? fun
    | served _ _ outcome => some outcome
    | _ => none

@[simp] theorem events_append (xs ys : List Occurrence) :
    events (xs ++ ys) = events xs ++ events ys := by
  simp [events]

@[simp] theorem recorded_append (xs ys : List Occurrence) :
    recorded (xs ++ ys) = recorded xs ++ recorded ys := by
  simp [recorded]

end Occurrence

namespace Network

/-- Caches that are not connected. -/
def ofCaches (caches : List Cache) : Network :=
  { levels := (caches.map fun cache => { cache, next := none }).toArray }

/-- The number of caches. -/
def size (net : Network) : Nat :=
  net.levels.size

/-- The cache at a level. -/
def cache? (net : Network) (i : Nat) : Option Cache :=
  (net.levels[i]?).map Level.cache

/-- What lies below a level. -/
def next? (net : Network) (i : Nat) : Option Link :=
  (net.levels[i]?).bind Level.next

/-- All caches, in order. -/
def caches (net : Network) : List Cache :=
  net.levels.toList.map Level.cache

/-- Changes the cache at a level. -/
def modifyCache (net : Network) (i : Nat) (f : Cache → Cache) : Network :=
  { levels := net.levels.modify i fun level => { level with cache := f level.cache } }

/-- Sends the misses of a level to `link`, or nowhere. -/
def connect (net : Network) (i : Nat) (link : Option Link) : Network :=
  { levels := net.levels.modify i fun level => { level with next := link } }

/-- Makes a level report its misses, or keep quiet about them. -/
def setLog (net : Network) (i : Nat) (logsMisses : Bool) : Network :=
  net.modifyCache i fun cache => { cache with logsMisses }

/-- Serves a request at a level and, to a depth of `depth` levels, all that it causes below.  The
account is in the order of time. -/
def deliver : Nat → Network → Nat → Request → Network × List Occurrence
  | 0, net, _, _ => (net, [])
  | depth + 1, net, i, r =>
    match net.levels[i]? with
    | none => (net, [])
    | some level =>
      let step := level.cache.access r
      step.effects.foldl (fun (net, log) effect =>
        match effect, level.next with
        | .notice event, _ => (net, log ++ [.notice event])
        | .forward _, none => (net, log)
        | .forward down, some .recorder => (net, log ++ [.forwarded i .recorder down])
        | .forward down, some (.level j) =>
          let (net, below) := deliver depth net j down
          (net, log ++ .forwarded i (.level j) down :: below))
        (net.modifyCache i fun _ => step.cache, [.served i r step.outcome])

/-- Serves a request at a level, with all that it causes. -/
def access (net : Network) (i : Nat) (r : Request) : Network × List Occurrence :=
  deliver net.size net i r

end Network

end CacheModel

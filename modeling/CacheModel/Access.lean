import CacheModel.Line

/-!
# Memory references

What a processor asks of memory: it fetches instructions, and it loads and stores data.
-/

namespace CacheModel

/-- The kinds of memory references. -/
inductive AccessKind where
  | fetch
  | load
  | store
  deriving Repr, DecidableEq

namespace AccessKind

/-- Whether the reference writes. -/
def isWrite : AccessKind → Bool
  | fetch => false
  | load => false
  | store => true

/-- The name of the kind. -/
def name : AccessKind → String
  | fetch => "fetch"
  | load => "load"
  | store => "store"

end AccessKind

/-- One memory reference. -/
structure Access where
  kind : AccessKind
  address : UInt64
  bytes : UInt64
  deriving Repr, DecidableEq

/-- What the reference asks of the cache that serves it. -/
def Access.request (a : Access) : Request :=
  { address := a.address, bytes := a.bytes, isWrite := a.kind.isWrite }

end CacheModel

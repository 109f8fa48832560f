import StackedCache.Item
import StackedCache.Error

/-!
# Layers

The calls that a cache makes on its layers. Layers are numbered from the
closest one; they never know of each other.
-/

namespace StackedCache

structure Entry where
  payload : Bytes
  remaining : Option Duration
  deriving DecidableEq

structure BatchHits where
  hits : Table Bytes := {}
  /-- The keys without an entry, as often and in the order in which they were asked for. -/
  missing : List String := []
  deriving DecidableEq

inductive LayerOp where
  | get (key : String)
  | set (key : String) (payload : Bytes) (ttl : Duration)
  | delete (key : String)
  | mget (keys : List String)
  | mset (items : Table Bytes) (ttl : Duration)
  deriving DecidableEq

namespace LayerOp

abbrev Answer : LayerOp → Type
  | .get _ => Option Entry
  | .set .. | .delete _ | .mset .. => Unit
  | .mget _ => BatchHits

abbrev Reply (op : LayerOp) : Type := Except CacheError op.Answer

end LayerOp

/-- What a cache knows of one of its layers. A layer without batch calls is driven key by key. -/
structure Tier where
  slot : Nat
  name : String
  batched : Bool
  deriving DecidableEq

end StackedCache

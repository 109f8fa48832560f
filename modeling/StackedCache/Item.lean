import StackedCache.Duration
import StackedCache.Table

/-!
# Items with a deadline

What a layer or a store holds under a key: bytes, and the instant from which
they count as absent.
-/

namespace StackedCache

structure Item where
  payload : Bytes
  /-- Without a deadline the item never expires. -/
  deadline : Option Instant
  deriving DecidableEq, Inhabited

namespace Item

/-- At its deadline an item is already expired. -/
def isExpired (item : Item) (now : Instant) : Bool :=
  match item.deadline with
  | none => false
  | some deadline => deadline ≤ now

def isLive (item : Item) (now : Instant) : Bool := !item.isExpired now

def remaining (item : Item) (now : Instant) : Option Duration :=
  item.deadline.map fun deadline => .ofNanos (deadline - now)

/-- A zero time to live sets no deadline. -/
def lasting (payload : Bytes) (ttl : Duration) (now : Instant) : Item :=
  ⟨payload, if ttl.isZero then none else some (now + ttl.nanos)⟩

end Item

def Table.live (items : Table Item) (now : Instant) : Table Item :=
  items.filter fun _ item => item.isLive now

def Table.liveItem? (items : Table Item) (key : String) (now : Instant) : Option Item :=
  (items.get? key).filter (·.isLive now)

end StackedCache

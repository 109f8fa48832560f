import StackedCache.Layer

/-!
# Memory layers

A memory layer holds items in process and counts its lookups. Its limit is
soft: a write that leaves more entries than that sweeps out the expired ones,
and nothing else is ever dropped to make room.
-/

namespace StackedCache

structure Memory where
  /-- The soft limit on the number of entries; zero means none. -/
  limit : Nat
  entries : Table Item := {}
  gets : Nat := 0
  hits : Nat := 0
  /-- The number of entries removed because they had expired. -/
  evictions : Nat := 0
  deriving DecidableEq

namespace Memory

def item (payload : Bytes) (ttl : Duration) (now : Instant) : Item :=
  ⟨payload, if ttl.isZero then none else now.after? ttl⟩

def lookup (memory : Memory) (now : Instant) (key : String) : Option Entry × Memory :=
  match memory.entries.get? key with
  | none => (none, { memory with gets := memory.gets + 1 })
  | some item =>
    if item.isExpired now then
      (none, { memory with
        gets := memory.gets + 1
        evictions := memory.evictions + 1
        entries := memory.entries.erase key })
    else
      (some ⟨item.payload, item.remaining now⟩,
        { memory with gets := memory.gets + 1, hits := memory.hits + 1 })

def sweep (memory : Memory) (now : Instant) : Nat × Memory :=
  let live := memory.entries.live now
  let removed := memory.entries.size - live.size
  (removed, { memory with entries := live, evictions := memory.evictions + removed })

/-- A layer above its limit is swept; the number removed tells that this happened. -/
def enforceLimit (memory : Memory) (now : Instant) : Option Nat × Memory :=
  if 0 < memory.limit ∧ memory.limit < memory.entries.size then
    let (removed, swept) := memory.sweep now
    (some removed, swept)
  else (none, memory)

def store (memory : Memory) (now : Instant) (ttl : Duration) (key : String) (payload : Bytes) :
    Memory :=
  { memory with entries := memory.entries.insert key (item payload ttl now) }

def storeAll (memory : Memory) (now : Instant) (ttl : Duration) (rows : List (String × Bytes)) :
    Memory :=
  rows.foldl (fun m row => m.store now ttl row.1 row.2) memory

def delete (memory : Memory) (key : String) : Memory :=
  { memory with entries := memory.entries.erase key }

def clear (memory : Memory) : Memory :=
  { memory with entries := {} }

def lookupAll (memory : Memory) (now : Instant) : List String → BatchHits × Memory
  | [] => ({}, memory)
  | key :: keys =>
    let (found, memory) := memory.lookup now key
    let (batch, memory) := memory.lookupAll now keys
    match found with
    | some entry => ({ batch with hits := batch.hits.insert key entry.payload }, memory)
    | none => ({ batch with missing := key :: batch.missing }, memory)

/-- The answer to a call, the number of entries that a sweep for room removed if there was
one, and the layer afterwards. Only a batch of no items leaves the limit unchecked. -/
def perform (memory : Memory) (now : Instant) :
    (op : LayerOp) → op.Answer × Option Nat × Memory
  | .get key =>
    let (found, memory) := memory.lookup now key
    (found, none, memory)
  | .set key payload ttl => ((), (memory.store now ttl key payload).enforceLimit now)
  | .delete key => ((), none, memory.delete key)
  | .mget keys =>
    let (batch, memory) := memory.lookupAll now keys
    (batch, none, memory)
  | .mset items ttl =>
    if items.isEmpty then ((), none, memory)
    else ((), (memory.storeAll now ttl items.rows).enforceLimit now)

end Memory

end StackedCache

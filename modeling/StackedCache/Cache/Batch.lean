import StackedCache.Cache.Remember

/-!
# Several keys at once

A batch read asks each layer for the keys still pending and copies what it
finds upwards. It takes negative records for misses. Keys that a batch loader
leaves out are marked as having no value.
-/

namespace StackedCache

structure BatchGet where
  hits : Table Bytes := {}
  /-- The keys that no layer could answer, in the order in which they were asked for. -/
  missing : List String := []
  deriving DecidableEq

/-- The keys without the empty one and without repetitions. -/
def distinctKeys (seen : List String) : List String → List String
  | [] => []
  | key :: keys =>
    if key = "" ∨ key ∈ seen then distinctKeys seen keys else key :: distinctKeys (key :: seen) keys

namespace Stack

open CacheProc

variable {Loader : Type}

def fetchEach (tier : Tier) (found : Table Bytes) :
    List String → CacheProc Loader (Except CacheError (Table Bytes))
  | [] => pure (.ok found)
  | key :: keys => do
    match ← getFrom tier key with
    | .error e => pure (.error e)
    | .ok none => fetchEach tier found keys
    | .ok (some entry) => fetchEach tier (found.insert key entry.payload) keys

def fetch (tier : Tier) (keys : List String) :
    CacheProc Loader (Except CacheError (Table Bytes)) := do
  if tier.batched then
    match ← mgetFrom tier keys with
    | .error e => pure (.error e)
    | .ok batch => pure (.ok batch.hits)
  else fetchEach tier {} keys

structure Sorted where
  hits : Table Bytes
  promoted : Table Bytes := {}
  pending : List String := []

def sortOne (stack : Stack) (tier : Tier) (found : Table Bytes) (sorted : Sorted) (key : String) :
    CacheProc Loader Sorted :=
  match found.get? (stack.fullKey key) with
  | none => pure { sorted with pending := sorted.pending ++ [key] }
  | some payload =>
    match Record.decode payload with
    | some (.positive value) => do
      count (.hit tier.name)
      pure { sorted with
        hits := sorted.hits.insert key (Record.positive value).value
        promoted := sorted.promoted.insert (stack.fullKey key) payload }
    | some .negative => do
      count (.negativeHit tier.name)
      pure { sorted with pending := sorted.pending ++ [key] }
    | none => do
      notice (.undecodable (stack.fullKey key) tier.name)
      pure { sorted with pending := sorted.pending ++ [key] }

def sortAll (stack : Stack) (tier : Tier) (found : Table Bytes) (sorted : Sorted) :
    List String → CacheProc Loader Sorted
  | [] => pure sorted
  | key :: keys => do
    let sorted ← stack.sortOne tier found sorted key
    stack.sortAll tier found sorted keys

/-- Writes key by key, for a layer without batch calls. The last failure is the result. -/
def writeItems (tier : Tier) (ttl : Duration) (last : Except CacheError Unit) :
    List (String × Bytes) → CacheProc Loader (Except CacheError Unit)
  | [] => pure last
  | (key, payload) :: rows => do
    match ← setIn tier key payload ttl with
    | .ok () => writeItems tier ttl last rows
    | .error e => writeItems tier ttl (.error e) rows

def backfillAll (stack : Stack) (items : Table Bytes) : List Tier → CacheProc Loader Unit
  | [] => pure ()
  | tier :: rest => do
    let ttl := stack.settings.defaultTtl
    match ← (if tier.batched then msetIn tier items ttl
        else writeItems tier ttl (.ok ()) items.rows) with
    | .ok () => notice (.batchBackfilled tier.name items.size)
    | .error e => notice (.batchBackfillFailed tier.name e.message)
    stack.backfillAll items rest

/-- Reads the pending keys from some layers; those passed already are `above` them. No
layer is asked for no keys. -/
def fetchFrom (stack : Stack) (hits : Table Bytes) (pending : List String) (above : List Tier) :
    List Tier → CacheProc Loader (Except CacheError BatchGet)
  | [] => do
    notice (.batchRead hits.size pending.length)
    pure (.ok ⟨hits, pending⟩)
  | tier :: below => do
    if pending.isEmpty then
      notice (.batchRead hits.size 0)
      pure (.ok ⟨hits, []⟩)
    else
      match ← fetch tier (pending.map stack.fullKey) with
      | .error e => pure (.error e)
      | .ok found =>
        let sorted ← stack.sortAll tier found { hits := hits } pending
        unless sorted.promoted.isEmpty do stack.backfillAll sorted.promoted above
        stack.fetchFrom sorted.hits sorted.pending (above ++ [tier]) below

def mget (stack : Stack) (keys : List String) : CacheProc Loader (Except CacheError BatchGet) :=
  let pending := distinctKeys [] keys
  if pending.isEmpty then pure (.ok {}) else stack.fetchFrom {} pending [] stack.tiers

def drawRows (stack : Stack) (ttl : Duration) :
    List (String × Bytes) → CacheProc Loader (List (String × Bytes × Duration))
  | [] => pure []
  | (key, value) :: items => do
    let jittered ← stack.jittered ttl
    let rows ← stack.drawRows ttl items
    pure ((stack.fullKey key, Record.encode value, jittered) :: rows)

def writeRows (tier : Tier) (first : Except CacheError Unit) :
    List (String × Bytes × Duration) → CacheProc Loader (Except CacheError Unit)
  | [] => pure first
  | (key, payload, ttl) :: rows => do
    match ← setIn tier key payload ttl with
    | .ok () => writeRows tier first rows
    | .error e =>
      notice (.writeFailed key tier.name e.message)
      writeRows tier (first.bind fun _ => .error e) rows

def writeRowsEach (rows : List (String × Bytes × Duration)) (first : Except CacheError Unit) :
    List Tier → CacheProc Loader (Except CacheError Unit)
  | [] => pure first
  | tier :: rest => do
    let first ← writeRows tier first rows
    writeRowsEach rows first rest

def mset (stack : Stack) (items : Table Bytes) (ttl : Duration) :
    CacheProc Loader (Except CacheError Unit) := do
  if items.isEmpty then pure (.ok ())
  else
    let rows ← stack.drawRows (stack.resolveTtl ttl) items.rows
    writeRowsEach rows (.ok ()) stack.tiers

/-- Caches what a batch loader found for the missing keys, and marks the others. -/
def storeLoaded (stack : Stack) (loaded : Table Loaded) (ttl : Duration) (hits : Table Bytes) :
    List String → CacheProc Loader (Table Bytes)
  | [] => pure hits
  | key :: keys =>
    match loaded.get? key with
    | some item => do
      match ← stack.set key item.value (item.ttlOr ttl) with
      | .ok () => pure ()
      | .error e => notice (.loadedNotCached key e.message)
      stack.storeLoaded loaded ttl (hits.insert key item.value) keys
    | none => do
      match ← stack.setNegative key with
      | .ok () => pure ()
      | .error e => notice (.negativeNotCached key e.message)
      stack.storeLoaded loaded ttl hits keys

/-- Loads every missing key with one call of the loader; what it returns for other keys is
ignored. Callers do not share loads here. -/
def mremember (stack : Stack) (keys : List String) (loader : Loader) (options : RememberOptions) :
    CacheProc Loader (Except CacheError (Table Bytes)) := do
  match ← stack.mget keys with
  | .error e => pure (.error e)
  | .ok batch =>
    if batch.missing.isEmpty then pure (.ok batch.hits)
    else
      let ttl := stack.resolveTtl (options.ttl.getD .zero)
      count .loaderCall
      match ← loadMany loader batch.missing with
      | .error e => pure (.error e)
      | .ok loaded =>
        let values ← stack.storeLoaded loaded ttl batch.hits batch.missing
        let extra := loaded.filter fun key _ => key ∉ batch.missing
        unless extra.isEmpty do notice (.unrequestedKeys extra.size)
        pure (.ok values)

end Stack

end StackedCache

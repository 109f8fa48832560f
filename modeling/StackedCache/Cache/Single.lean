import StackedCache.Cache.Stack

/-!
# Single keys

Reading goes from the closest layer down and ends at the first record; what
was found is copied into the layers above. Writing and deleting go through all
layers, whatever fails on the way.
-/

namespace StackedCache

inductive Lookup where
  | hit (value : Bytes)
  /-- The key is known to have no value. -/
  | negative
  | miss
  deriving DecidableEq

namespace Stack

open CacheProc

variable {Loader : Type}

def backfill (stack : Stack) (key : String) (payload : Bytes) : List Tier → CacheProc Loader Unit
  | [] => pure ()
  | tier :: rest => do
    match ← setIn tier key payload stack.settings.defaultTtl with
    | .ok () => notice (.backfilled key tier.name)
    | .error e => notice (.backfillFailed key tier.name e.message)
    stack.backfill key payload rest

/-- Reads from some layers; those passed already are `above` them. -/
def readFrom (stack : Stack) (key : String) (above : List Tier) :
    List Tier → CacheProc Loader (Except CacheError Lookup)
  | [] => do
    notice (.miss key)
    count .miss
    pure (.ok .miss)
  | tier :: below => do
    match ← getFrom tier key with
    | .error e => pure (.error e)
    | .ok none => stack.readFrom key (above ++ [tier]) below
    | .ok (some entry) =>
      match Record.decode entry.payload with
      | none =>
        notice (.undecodable key tier.name)
        stack.readFrom key (above ++ [tier]) below
      | some .negative =>
        notice (.negativeHit key tier.name)
        count (.negativeHit tier.name)
        pure (.ok .negative)
      | some (.positive value) =>
        notice (.hit key tier.name)
        count (.hit tier.name)
        stack.backfill key entry.payload above
        pure (.ok (.hit (Record.positive value).value))

def get (stack : Stack) (key : String) : CacheProc Loader (Except CacheError Lookup) :=
  stack.readFrom (stack.fullKey key) [] stack.tiers

/-- Writes a payload to each of some layers. The first failure is the result, unless
there was one before. -/
def writeEach (key : String) (payload : Bytes) (ttl : Duration) (first : Except CacheError Unit) :
    List Tier → CacheProc Loader (Except CacheError Unit)
  | [] => pure first
  | tier :: rest => do
    match ← setIn tier key payload ttl with
    | .ok () => writeEach key payload ttl first rest
    | .error e =>
      notice (.writeFailed key tier.name e.message)
      writeEach key payload ttl (first.bind fun _ => .error e) rest

def set (stack : Stack) (key : String) (value : Bytes) (ttl : Duration) :
    CacheProc Loader (Except CacheError Unit) := do
  let ttl ← stack.jittered (stack.resolveTtl ttl)
  writeEach (stack.fullKey key) (Record.encode value) ttl (.ok ()) stack.tiers

def setNegative (stack : Stack) (key : String) : CacheProc Loader (Except CacheError Unit) := do
  let ttl ← stack.jittered stack.settings.negativeTtl
  writeEach (stack.fullKey key) Record.encodeNegative ttl (.ok ()) stack.tiers

def deleteEach (key : String) (first : Except CacheError Unit) :
    List Tier → CacheProc Loader (Except CacheError Unit)
  | [] => pure first
  | tier :: rest => do
    match ← deleteIn tier key with
    | .ok () => deleteEach key first rest
    | .error e =>
      notice (.deleteFailed key tier.name e.message)
      deleteEach key (first.bind fun _ => .error e) rest

def delete (stack : Stack) (key : String) : CacheProc Loader (Except CacheError Unit) :=
  deleteEach (stack.fullKey key) (.ok ()) stack.tiers

def closeEach : List Tier → CacheProc Loader Unit
  | [] => pure ()
  | tier :: rest => do
    ask (.close tier.slot)
    closeEach rest

def close (stack : Stack) : CacheProc Loader Unit := do
  closeEach stack.tiers
  notice (.closed stack.tiers.length)

end Stack

end StackedCache

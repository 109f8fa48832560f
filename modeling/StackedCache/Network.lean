import StackedCache.Event
import StackedCache.Layer
import StackedCache.Store

/-!
# Networked layers

A networked layer forwards to a store and bounds the time of each call. It
names itself in the errors that it passes on.
-/

namespace StackedCache

inductive CallFailure where
  | late (after : Duration)
  | failed (error : Failure)

def CallFailure.inLayer (layer : String) : CallFailure → CacheError
  | .late after => .timeout layer after
  | .failed error => .backend layer error

inductive StoreRequest where
  /-- One call, given up when it takes longer than the bound. -/
  | call (bound : Option Duration) (op : StoreOp)
  | notice (notice : Notice)

abbrev StoreRequest.Reply : StoreRequest → Type
  | .call _ op => Except CallFailure op.Answer
  | .notice _ => Unit

abbrev StoreCalls : Signature := ⟨StoreRequest, StoreRequest.Reply⟩

structure Network where
  name : String
  bound : Option Duration
  deriving DecidableEq

namespace Network

def bounded (name : String) (timeout : Duration) : Network :=
  ⟨name, if timeout.isZero then none else some timeout⟩

def call (layer : Network) (op : StoreOp) : Proc StoreCalls (Except CacheError op.Answer) := do
  let reply : Except CallFailure op.Answer ← Proc.request (S := StoreCalls) (.call layer.bound op)
  pure (reply.mapError (·.inLayer layer.name))

def notice (notice : Notice) : Proc StoreCalls Unit :=
  Proc.request (S := StoreCalls) (.notice notice)

/-- A hit needs no time left: that question may fail. -/
def get (layer : Network) (key : String) : Proc StoreCalls (Except CacheError (Option Entry)) := do
  match ← layer.call (.get key) with
  | .error e => pure (.error e)
  | .ok none => pure (.ok none)
  | .ok (some payload) =>
    match ← layer.call (.ttl key) with
    | .ok remaining => pure (.ok (some ⟨payload, remaining⟩))
    | .error e =>
      notice (.ttlUnknown layer.name key e.message)
      pure (.ok (some ⟨payload, none⟩))

/-- Pairs the keys with what was found; a key that was found counts as a hit the first time. -/
def split (found : Table Bytes) : List String → BatchHits
  | [] => {}
  | key :: keys =>
    match found.get? key with
    | some payload =>
      let batch := split (found.erase key) keys
      { batch with hits := batch.hits.insert key payload }
    | none =>
      let batch := split found keys
      { batch with missing := key :: batch.missing }

def mget (layer : Network) (keys : List String) : Proc StoreCalls (Except CacheError BatchHits) := do
  if keys.isEmpty then pure (.ok {})
  else
    match ← layer.call (.mget keys) with
    | .error e => pure (.error e)
    | .ok found => pure (.ok (split found keys))

def mset (layer : Network) (items : Table Bytes) (ttl : Duration) :
    Proc StoreCalls (Except CacheError Unit) :=
  if items.isEmpty then pure (.ok ()) else layer.call (.mset items.rows ttl)

def perform (layer : Network) : (op : LayerOp) → Proc StoreCalls op.Reply
  | .get key => layer.get key
  | .set key payload ttl => layer.call (.set key payload ttl)
  | .delete key => layer.call (.delete key)
  | .mget keys => layer.mget keys
  | .mset items ttl => layer.mset items ttl

end Network

end StackedCache

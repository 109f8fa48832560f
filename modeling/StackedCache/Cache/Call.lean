import StackedCache.Event
import StackedCache.Flights
import StackedCache.Layer
import StackedCache.Proc

/-!
# What a cache asks of its surroundings

A cache works through requests: calls on its layers, calls of a loader, the
steps of a flight, a random draw, and reports. Loaders are known to it by
handles only, of a type left open.
-/

namespace StackedCache

structure Loaded where
  value : Bytes
  ttl : Option Duration := none
  deriving DecidableEq

inductive CacheRequest (Loader : Type) where
  | layer (slot : Nat) (op : LayerOp)
  | close (slot : Nat)
  | load (loader : Loader)
  | loadMany (loader : Loader) (keys : List String)
  /-- A random number between `-spread` and `spread`. -/
  | draw (spread : Rat)
  | join (key : String)
  /-- Waits until the caller leads its flight or the flight has landed. -/
  | turn (seat : Seat)
  | land (seat : Seat) (outcome : Outcome)
  | leave (seat : Seat)
  | notice (notice : Notice)
  | count (count : Count)

namespace CacheRequest

abbrev Reply {Loader : Type} : CacheRequest Loader → Type
  | .layer _ op => op.Reply
  | .close _ => Unit
  | .load _ => Except CacheError Loaded
  | .loadMany .. => Except CacheError (Table Loaded)
  | .draw _ => Rat
  | .join _ => Seat
  -- Without an outcome the caller leads.
  | .turn _ => Option Outcome
  | .land .. | .leave _ | .notice _ | .count _ => Unit

end CacheRequest

abbrev CacheCalls (Loader : Type) : Signature := ⟨CacheRequest Loader, CacheRequest.Reply⟩

abbrev CacheProc (Loader : Type) : Type → Type := Proc (CacheCalls Loader)

namespace CacheProc

variable {Loader : Type}

def ask (r : CacheRequest Loader) : CacheProc Loader r.Reply := Proc.request (S := CacheCalls Loader) r

def notice (n : Notice) : CacheProc Loader Unit := ask (.notice n)

def count (c : Count) : CacheProc Loader Unit := ask (.count c)

def getFrom (tier : Tier) (key : String) : CacheProc Loader (Except CacheError (Option Entry)) :=
  ask (.layer tier.slot (.get key))

def setIn (tier : Tier) (key : String) (payload : Bytes) (ttl : Duration) :
    CacheProc Loader (Except CacheError Unit) :=
  ask (.layer tier.slot (.set key payload ttl))

def deleteIn (tier : Tier) (key : String) : CacheProc Loader (Except CacheError Unit) :=
  ask (.layer tier.slot (.delete key))

def mgetFrom (tier : Tier) (keys : List String) : CacheProc Loader (Except CacheError BatchHits) :=
  ask (.layer tier.slot (.mget keys))

def msetIn (tier : Tier) (items : Table Bytes) (ttl : Duration) :
    CacheProc Loader (Except CacheError Unit) :=
  ask (.layer tier.slot (.mset items ttl))

def load (loader : Loader) : CacheProc Loader (Except CacheError Loaded) := ask (.load loader)

def loadMany (loader : Loader) (keys : List String) :
    CacheProc Loader (Except CacheError (Table Loaded)) :=
  ask (.loadMany loader keys)

def draw (spread : Rat) : CacheProc Loader Rat := ask (.draw spread)

/-- Loads as one of the callers who share the flight of a key. Everybody gets a copy of
the outcome, the caller who loaded it included. -/
def share (key : String) (load : CacheProc Loader Outcome) : CacheProc Loader Outcome := do
  let seat : Seat ← ask (.join key)
  let landed : Option Outcome ← ask (.turn seat)
  match landed with
  | some outcome =>
    ask (.leave seat)
    pure (outcome.mapError (·.share))
  | none =>
    let outcome ← load
    ask (.land seat outcome)
    ask (.leave seat)
    pure (outcome.mapError (·.share))

end CacheProc

end StackedCache

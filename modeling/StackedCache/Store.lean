import StackedCache.Error
import StackedCache.Item
import StackedCache.Proc

/-!
# Key-value stores

The calls that a networked layer makes on a store. A store that has no batch
calls of its own answers them by single calls, one per key.
-/

namespace StackedCache

inductive StoreOp where
  | get (key : String)
  | set (key : String) (value : Bytes) (ttl : Duration)
  | delete (key : String)
  | ttl (key : String)
  | mget (keys : List String)
  | mset (rows : List (String × Bytes)) (ttl : Duration)
  deriving DecidableEq

namespace StoreOp

/-- Absent keys are no failure: `get` and `ttl` answer nothing, `mget` leaves them out. -/
abbrev Answer : StoreOp → Type
  | .get _ => Option Bytes
  | .set .. | .delete _ | .mset .. => Unit
  | .ttl _ => Option Duration
  | .mget _ => Table Bytes

abbrev Reply (op : StoreOp) : Type := Except Failure op.Answer

end StoreOp

abbrev Store (S : Signature) : Type := (op : StoreOp) → Proc S op.Reply

namespace Store

variable {S : Signature}

def getEach (get : String → Proc S (Except Failure (Option Bytes))) (found : Table Bytes) :
    List String → Proc S (Except Failure (Table Bytes))
  | [] => pure (.ok found)
  | key :: keys => do
    match ← get key with
    | .error e => pure (.error e)
    | .ok none => getEach get found keys
    | .ok (some value) => getEach get (found.insert key value) keys

def setEach (set : String → Bytes → Proc S (Except Failure Unit)) :
    List (String × Bytes) → Proc S (Except Failure Unit)
  | [] => pure (.ok ())
  | (key, value) :: rows => do
    match ← set key value with
    | .error e => pure (.error e)
    | .ok () => setEach set rows

end Store

end StackedCache

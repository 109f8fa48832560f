import StackedCache.Cache.Call
import StackedCache.Store

/-!
# Scripted surroundings

Stores and loaders whose delays and failures follow a script. A scripted store
is a map with expiry that answers truthfully unless one of its rules says
otherwise.
-/

namespace StackedCache.Simulation

inductive StoreVerb where
  | get
  | set
  | delete
  | ttl
  | mget
  | mset
  deriving DecidableEq

def StoreVerb.of : StoreOp → StoreVerb
  | .get _ => .get
  | .set .. => .set
  | .delete _ => .delete
  | .ttl _ => .ttl
  | .mget _ => .mget
  | .mset .. => .mset

def singleKey? : StoreOp → Option String
  | .get key | .set key .. | .delete key | .ttl key => some key
  | .mget _ | .mset .. => none

/-- What happens to the calls that a rule applies to: they wait, then never end or fail. -/
structure Rule where
  /-- The calls it applies to; all if there is no list. -/
  verbs : Option (List StoreVerb) := none
  /-- The single keys it applies to; all calls if there is no list. -/
  keys : Option (List String) := none
  delay : Option Duration := none
  hang : Bool := false
  failure : Option Failure := none

def Rule.applies (rule : Rule) (op : StoreOp) : Bool :=
  (match rule.verbs with
    | none => true
    | some verbs => StoreVerb.of op ∈ verbs) &&
  (match rule.keys with
    | none => true
    | some keys =>
      match singleKey? op with
      | none => false
      | some key => key ∈ keys)

structure ScriptedStore where
  /-- Whether batch calls are calls of their own. -/
  batched : Bool
  rules : List Rule
  items : Table Item := {}
  /-- Every time to live ever written, with its key. -/
  writes : List (String × Duration) := []

namespace ScriptedStore

def found (store : ScriptedStore) (now : Instant) (keys : List String) : Table Bytes :=
  keys.foldl (fun found key =>
    match store.items.liveItem? key now with
    | some item => found.insert key item.payload
    | none => found) {}

def write (store : ScriptedStore) (now : Instant) (ttl : Duration) (row : String × Bytes) :
    ScriptedStore :=
  { store with
    items := store.items.insert row.1 (.lasting row.2 ttl now)
    writes := store.writes ++ [(row.1, ttl)] }

def perform (store : ScriptedStore) (now : Instant) : (op : StoreOp) → op.Answer × ScriptedStore
  | .get key => ((store.items.liveItem? key now).map Item.payload, store)
  | .set key value ttl => ((), store.write now ttl (key, value))
  | .delete key => ((), { store with items := store.items.erase key })
  | .ttl key => ((store.items.liveItem? key now).bind (·.remaining now), store)
  | .mget keys => (store.found now keys, store)
  | .mset rows ttl => ((), rows.foldl (·.write now ttl) store)

end ScriptedStore

structure ScriptedLoader where
  key : String
  delay : Option Duration := none
  never : Bool := false
  single : Except CacheError Loaded := .error .notFound
  many : Except CacheError (Table Loaded) := .ok {}

end StackedCache.Simulation

import StackedCache.Binary64
import StackedCache.Table
import StackedCache.Text.Quoted

/-!
# Events

What a cache reports about its work: notices for a log, each with a severity,
a text and named fields, and counts for a meter.
-/

namespace StackedCache

inductive Severity where
  | debug
  | info
  | warn
  deriving DecidableEq

namespace Severity

def rank : Severity → Nat
  | .debug => 0
  | .info => 1
  | .warn => 2

def name : Severity → String
  | .debug => "DEBUG"
  | .info => "INFO"
  | .warn => "WARN"

end Severity

structure HitRate where
  layer : String
  gets : Nat
  hits : Nat
  deriving DecidableEq

def HitRate.rate (sample : HitRate) : Binary64 :=
  if sample.gets = 0 then .ofNat 0 else (Binary64.ofNat sample.hits).div (.ofNat sample.gets)

inductive Notice where
  | undecodable (key layer : String)
  | negativeHit (key layer : String)
  | hit (key layer : String)
  | miss (key : String)
  | backfilled (key layer : String)
  | backfillFailed (key layer error : String)
  | writeFailed (key layer error : String)
  | deleteFailed (key layer error : String)
  | loadedNotCached (key error : String)
  | loaderFoundNothing (key : String)
  | negativeNotCached (key error : String)
  | closed (layers : Nat)
  | batchRead (hits missing : Nat)
  | batchBackfilled (layer : String) (keys : Nat)
  | batchBackfillFailed (layer error : String)
  | unrequestedKeys (extra : Nat)
  | sweptOverCapacity (layer : String) (removed limit : Nat)
  | tasksNotStarted (layer : String)
  | taskFailed (layer : String)
  | swept (layer : String) (removed : Nat)
  | hitRate (sample : HitRate)
  | ttlUnknown (layer key error : String)
  | cacheDisabled
  | cacheBuilt (layers : List String) (keyPrefix policy : String)
  | connecting (poolSize : Nat)
  | connected
  deriving DecidableEq

inductive FieldValue where
  | text (s : String)
  | number (n : Nat)
  | double (d : Binary64)
  deriving DecidableEq

namespace Notice

def severity : Notice → Severity
  | .backfillFailed .. | .loadedNotCached .. | .negativeNotCached .. | .batchBackfillFailed ..
  | .tasksNotStarted .. | .taskFailed .. => .warn
  | .closed .. | .hitRate .. | .cacheDisabled | .cacheBuilt .. | .connecting .. | .connected => .info
  | _ => .debug

def message : Notice → String
  | .undecodable .. => "undecodable cache payload, treating as miss"
  | .negativeHit .. => "cache hit (negative)"
  | .hit .. => "cache hit"
  | .miss .. => "cache miss"
  | .backfilled .. => "cache backfill"
  | .backfillFailed .. => "cache backfill failed"
  | .writeFailed .. => "cache write failed"
  | .deleteFailed .. => "cache delete failed"
  | .loadedNotCached .. => "failed to cache loaded value"
  | .loaderFoundNothing .. => "loader reported not found, caching negative entry"
  | .negativeNotCached .. => "failed to cache negative entry"
  | .closed .. => "cache closed"
  | .batchRead .. => "cache batch get"
  | .batchBackfilled .. => "cache batch backfill"
  | .batchBackfillFailed .. => "cache batch backfill failed"
  | .unrequestedKeys .. => "batch loader returned unrequested keys, ignoring them"
  | .sweptOverCapacity .. => "memory layer over capacity, swept expired entries"
  | .tasksNotStarted .. => "no Tokio runtime available, memory layer background tasks disabled"
  | .taskFailed .. => "memory layer task failed"
  | .swept .. => "swept expired cache entries"
  | .hitRate .. => "cache layer hit rate"
  | .ttlUnknown .. => "TTL lookup failed"
  | .cacheDisabled => "caching disabled, using no-op cache"
  | .cacheBuilt .. => "cache initialized"
  | .connecting .. => "Connecting to Redis"
  | .connected => "Connected to Redis successfully"

def fields : Notice → List (String × FieldValue)
  | .undecodable key layer | .negativeHit key layer | .hit key layer | .backfilled key layer =>
    [("key", .text key), ("layer", .text layer)]
  | .miss key | .loaderFoundNothing key => [("key", .text key)]
  | .backfillFailed key layer error | .writeFailed key layer error | .deleteFailed key layer error
  | .ttlUnknown layer key error =>
    [("key", .text key), ("layer", .text layer), ("error", .text error)]
  | .loadedNotCached key error | .negativeNotCached key error =>
    [("key", .text key), ("error", .text error)]
  | .closed layers => [("layers", .number layers)]
  | .batchRead hits missing => [("hits", .number hits), ("missing", .number missing)]
  | .batchBackfilled layer keys => [("layer", .text layer), ("keys", .number keys)]
  | .batchBackfillFailed layer error => [("layer", .text layer), ("error", .text error)]
  | .unrequestedKeys extra => [("extra", .number extra)]
  | .sweptOverCapacity layer removed limit =>
    [("layer", .text layer), ("removed", .number removed), ("max_entries", .number limit)]
  | .tasksNotStarted layer | .taskFailed layer => [("layer", .text layer)]
  | .swept layer removed => [("layer", .text layer), ("removed", .number removed)]
  | .hitRate sample =>
    [("layer", .text sample.layer), ("gets", .number sample.gets), ("hits", .number sample.hits),
      ("hit_rate", .double sample.rate)]
  | .cacheDisabled | .connected => []
  | .cacheBuilt layers keyPrefix policy =>
    [("layers", .text (Text.quotedList layers)), ("prefix", .text keyPrefix), ("read_policy", .text policy)]
  | .connecting poolSize => [("pool_size", .number poolSize)]

end Notice

inductive Count where
  | hit (layer : String)
  | miss
  | negativeHit (layer : String)
  | loaderCall
  | entries (layer : String) (held : Nat)
  deriving DecidableEq

namespace Count

def meter : Count → String
  | .hit layer => "cache_hits_total\x7blayer=" ++ layer ++ "\x7d"
  | .miss => "cache_misses_total\x7b\x7d"
  | .negativeHit layer => "cache_negative_hits_total\x7blayer=" ++ layer ++ "\x7d"
  | .loaderCall => "cache_loader_calls_total\x7b\x7d"
  | .entries layer _ => "cache_entries\x7blayer=" ++ layer ++ "\x7d"

def record (count : Count) (meters : Table Nat) : Table Nat :=
  match count with
  | .entries _ held => meters.insert count.meter held
  | _ => meters.insert count.meter ((meters.get? count.meter).getD 0 + 1)

end Count

end StackedCache

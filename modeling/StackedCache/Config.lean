import StackedCache.Duration
import StackedCache.Text.Reading

/-!
# Cache configuration

The settings of a cache and of its layers, their defaults, and what makes a
configuration unusable.
-/

namespace StackedCache

inductive ReadPolicy where
  /-- Every caller calls its loader. -/
  | cacheAside
  /-- The callers share one load. -/
  | singleFlight
  deriving DecidableEq

namespace ReadPolicy

def name : ReadPolicy → String
  | .cacheAside => "cache_aside"
  | .singleFlight => "cache_aside_singleflight"

def title : ReadPolicy → String
  | .cacheAside => "CacheAside"
  | .singleFlight => "CacheAsideSingleFlight"

def ofName? (name : String) : Option ReadPolicy :=
  if name = "cache_aside" then some .cacheAside
  else if name = "cache_aside_singleflight" ∨ name = "cache_aside_sf" then some .singleFlight
  else none

end ReadPolicy

structure MemoryConfig where
  /-- The soft limit on entries; zero means none. -/
  maxEntries : UInt64 := 10000
  /-- How often expired entries are swept; zero means never. -/
  cleanIntervalMs : UInt64 := 60000
  /-- How often the hit rate is reported; zero means never. -/
  statsIntervalMs : UInt64 := 0
  deriving DecidableEq, Inhabited

def interval? (ms : UInt64) : Option Duration := if ms = 0 then none else some (.ofMillis ms)

namespace MemoryConfig

def cleanInterval (config : MemoryConfig) : Option Duration := interval? config.cleanIntervalMs

def statsInterval (config : MemoryConfig) : Option Duration := interval? config.statsIntervalMs

end MemoryConfig

structure NetworkConfig where
  /-- The name under which the store is registered. -/
  store : String := "redis"
  /-- The bound on one store call; zero means none. -/
  opTimeoutMs : UInt64 := 0
  deriving DecidableEq, Inhabited

inductive LayerConfig where
  | memory (config : MemoryConfig)
  | networked (config : NetworkConfig)
  deriving DecidableEq, Inhabited

structure CacheConfig where
  enabled : Bool := true
  keyPrefix : String := ""
  defaultTtlMs : UInt64 := 300000
  /-- The jitter as a fraction of a time to live: a tenth. -/
  jitter : Binary64 := ⟨0x3fb999999999999a⟩
  negativeTtlMs : UInt64 := 30000
  readPolicy : ReadPolicy := .singleFlight
  /-- The closest layer comes first. -/
  layers : List LayerConfig := [.memory {}]
  deriving DecidableEq, Inhabited

inductive Misconfiguration where
  | jitterOutOfRange
  | noDefaultTtl
  | noLayerConfigured
  | blankStore (index : Nat)
  | unknownStore (store layer : String)
  | noLayer
  deriving DecidableEq

def Misconfiguration.message : Misconfiguration → String
  | .jitterOutOfRange => "jitter_percent must be within [0, 1]"
  | .noDefaultTtl => "default_ttl_ms must be > 0"
  | .noLayerConfigured => "at least one cache layer must be configured"
  | .blankStore index => "layers[" ++ toString index ++ "].store must not be empty"
  | .unknownStore store layer =>
    "store handle `" ++ store ++ "` for layer " ++ layer ++ " has not been provisioned"
  | .noLayer => "no cache layers configured"

namespace CacheConfig

def defaultTtl (config : CacheConfig) : Duration := .ofMillis config.defaultTtlMs

def negativeTtl (config : CacheConfig) : Duration :=
  .ofMillis (if config.negativeTtlMs = 0 then 30000 else config.negativeTtlMs)

def firstBlankStore? (index : Nat) : List LayerConfig → Option Nat
  | [] => none
  | .memory _ :: rest => firstBlankStore? (index + 1) rest
  | .networked config :: rest =>
    if Text.isBlank config.store then some index else firstBlankStore? (index + 1) rest

/-- The first fault of a configuration. The layers of a disabled cache do not matter. -/
def fault? (config : CacheConfig) : Option Misconfiguration :=
  if !config.jitter.inUnitInterval then some .jitterOutOfRange
  else if config.defaultTtlMs = 0 then some .noDefaultTtl
  else if !config.enabled then none
  else if config.layers.isEmpty then some .noLayerConfigured
  else (firstBlankStore? 0 config.layers).map .blankStore

end CacheConfig

end StackedCache

import StackedCache.Cache.Call
import StackedCache.Config
import StackedCache.Record

/-!
# Stacks of layers

A stack is an ordered list of layers, the closest one first, with the settings
that its operations follow. Every key gets the stack's prefix before it
reaches a layer.
-/

namespace StackedCache

structure Settings where
  keyPrefix : String
  defaultTtl : Duration
  negativeTtl : Duration
  jitter : Binary64
  policy : ReadPolicy

def CacheConfig.settings (config : CacheConfig) : Settings where
  keyPrefix := config.keyPrefix
  defaultTtl := config.defaultTtl
  negativeTtl := config.negativeTtl
  jitter := config.jitter
  policy := config.readPolicy

structure Stack where
  settings : Settings
  tiers : List Tier

namespace Stack

/-- A stack takes its settings from a configuration, whose own list of layers does not
matter here. Each layer is given by its name and by whether it has batch calls. -/
def build (config : CacheConfig) (layers : List (String × Bool)) : Except Misconfiguration Stack :=
  if layers.isEmpty then .error .noLayer
  else if !config.jitter.inUnitInterval then .error .jitterOutOfRange
  else .ok ⟨config.settings, layers.zipIdx.map fun ((name, batched), slot) => ⟨slot, name, batched⟩⟩

def layerNames (stack : Stack) : List String := stack.tiers.map Tier.name

def fullKey (stack : Stack) (key : String) : String := stack.settings.keyPrefix ++ key

def resolveTtl (stack : Stack) (ttl : Duration) : Duration := ttl.orElse stack.settings.defaultTtl

variable {Loader : Type}

def jittered (stack : Stack) (ttl : Duration) : CacheProc Loader Duration :=
  match Jitter.spread? stack.settings.jitter with
  | none => pure ttl
  | some spread => do
    let delta ← CacheProc.draw spread
    pure (Jitter.scale Binary64.round ttl delta)

end Stack

end StackedCache

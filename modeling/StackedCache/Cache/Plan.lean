import StackedCache.Cache
import StackedCache.Network

/-!
# Planning a cache

What is built from a configuration: no layers for a disabled cache, and
otherwise the layers L1, L2, … in the configured order. Stores come from
outside, under the names that the configuration uses.
-/

namespace StackedCache

inductive PlannedLayer where
  | memory (name : String) (config : MemoryConfig)
  | network (layer : Network) (store : String)
  deriving DecidableEq

namespace PlannedLayer

def name : PlannedLayer → String
  | .memory name _ => name
  | .network layer _ => layer.name

end PlannedLayer

def layerName (index : Nat) : String := "L" ++ toString (index + 1)

def planLayers (registered : String → Bool) (index : Nat) :
    List LayerConfig → Except Misconfiguration (List PlannedLayer)
  | [] => .ok []
  | .memory config :: rest => do
    let layers ← planLayers registered (index + 1) rest
    pure (.memory (layerName index) config :: layers)
  | .networked config :: rest =>
    if registered config.store then do
      let layers ← planLayers registered (index + 1) rest
      pure (.network (.bounded (layerName index) (.ofMillis config.opTimeoutMs)) config.store :: layers)
    else .error (.unknownStore config.store (layerName index))

def CacheConfig.plan (config : CacheConfig) (registered : String → Bool) :
    Except Misconfiguration (Cache × List PlannedLayer) :=
  if !config.enabled then .ok (.disabled, [])
  else
    match config.fault? with
    | some fault => .error fault
    | none => do
      let layers ← planLayers registered 0 config.layers
      let stack ← Stack.build config (layers.map fun layer => (layer.name, true))
      pure (.stacked stack, layers)

def CacheConfig.builtNotice (config : CacheConfig) : Cache → Notice
  | .stacked stack => .cacheBuilt stack.layerNames config.keyPrefix config.readPolicy.title
  | .disabled => .cacheDisabled

end StackedCache

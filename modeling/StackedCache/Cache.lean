import StackedCache.Cache.Batch

/-!
# Caches

The handle for applications: a stack of layers, or a cache that is disabled.
A disabled cache misses every read and ignores every write; what a loader
returns is handed back as it is.
-/

namespace StackedCache

inductive Cache where
  | stacked (stack : Stack)
  | disabled

namespace Cache

open CacheProc

variable {Loader : Type}

def isEnabled : Cache → Bool
  | .stacked _ => true
  | .disabled => false

def get (cache : Cache) (key : String) : CacheProc Loader (Except CacheError Lookup) :=
  match cache with
  | .stacked stack => stack.get key
  | .disabled => pure (.ok .miss)

def getValue (cache : Cache) (key : String) : CacheProc Loader Outcome := do
  match ← cache.get key with
  | .error e => pure (.error e)
  | .ok (.hit value) => pure (.ok value)
  | .ok _ => pure (.error .notFound)

def set (cache : Cache) (key : String) (value : Bytes) (ttl : Duration) :
    CacheProc Loader (Except CacheError Unit) :=
  match cache with
  | .stacked stack => stack.set key value ttl
  | .disabled => pure (.ok ())

def delete (cache : Cache) (key : String) : CacheProc Loader (Except CacheError Unit) :=
  match cache with
  | .stacked stack => stack.delete key
  | .disabled => pure (.ok ())

def remember (cache : Cache) (key : String) (loader : Loader) (options : RememberOptions) :
    CacheProc Loader Outcome :=
  match cache with
  | .stacked stack => stack.remember key loader options
  | .disabled => do
    match ← load loader with
    | .ok loaded => pure (.ok loaded.value)
    | .error e => pure (.error e)

def mget (cache : Cache) (keys : List String) : CacheProc Loader (Except CacheError BatchGet) :=
  match cache with
  | .stacked stack => stack.mget keys
  | .disabled => pure (.ok ⟨{}, distinctKeys [] keys⟩)

def mset (cache : Cache) (items : Table Bytes) (ttl : Duration) :
    CacheProc Loader (Except CacheError Unit) :=
  match cache with
  | .stacked stack => stack.mset items ttl
  | .disabled => pure (.ok ())

/-- A disabled cache returns all that the loader does, keys that were not asked for included. -/
def mremember (cache : Cache) (keys : List String) (loader : Loader) (options : RememberOptions) :
    CacheProc Loader (Except CacheError (Table Bytes)) :=
  match cache with
  | .stacked stack => stack.mremember keys loader options
  | .disabled => do
    let keys := distinctKeys [] keys
    if keys.isEmpty then pure (.ok {})
    else
      match ← loadMany loader keys with
      | .ok loaded => pure (.ok (loaded.map Loaded.value))
      | .error e => pure (.error e)

def close (cache : Cache) : CacheProc Loader Unit :=
  match cache with
  | .stacked stack => stack.close
  | .disabled => pure ()

def text : Cache → String
  | .stacked stack => "Cache::Layered \x7b layers: " ++ Text.quotedList stack.layerNames ++ " \x7d"
  | .disabled => "Cache::Disabled"

end Cache

end StackedCache

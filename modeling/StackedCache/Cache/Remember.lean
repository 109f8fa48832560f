import StackedCache.Cache.Single

/-!
# Reading through a loader

A miss calls the loader and caches what it finds, or the mark that there is
nothing. Under single flight the callers for a key share one load.
-/

namespace StackedCache

structure RememberOptions where
  /-- The time to live of a loaded value for which the loader suggests none. -/
  ttl : Option Duration := none
  policy : Option ReadPolicy := none
  deriving DecidableEq

def Loaded.ttlOr (loaded : Loaded) (ttl : Duration) : Duration :=
  (loaded.ttl.getD .zero).orElse ttl

namespace Stack

open CacheProc

variable {Loader : Type}

/-- Calls the loader. Failing to cache its result is no failure. -/
def loadWith (stack : Stack) (key : String) (loader : Loader) (ttl : Duration) :
    CacheProc Loader Outcome := do
  count .loaderCall
  match ← load loader with
  | .ok loaded =>
    match ← stack.set key loaded.value (loaded.ttlOr ttl) with
    | .ok () => pure (.ok loaded.value)
    | .error e =>
      notice (.loadedNotCached key e.message)
      pure (.ok loaded.value)
  | .error e =>
    if e.isNotFound then
      notice (.loaderFoundNothing key)
      match ← stack.setNegative key with
      | .ok () => pure (.error .notFound)
      | .error e =>
        notice (.negativeNotCached key e.message)
        pure (.error .notFound)
    else pure (.error e)

def getOr (stack : Stack) (key : String) (onMiss : CacheProc Loader Outcome) :
    CacheProc Loader Outcome := do
  match ← stack.get key with
  | .error e => pure (.error e)
  | .ok (.hit value) => pure (.ok value)
  | .ok .negative => pure (.error .notFound)
  | .ok .miss => onMiss

/-- A flight reads the key once more before it loads, because an earlier one may have
filled it since. -/
def remember (stack : Stack) (key : String) (loader : Loader) (options : RememberOptions) :
    CacheProc Loader Outcome :=
  let ttl := stack.resolveTtl (options.ttl.getD .zero)
  stack.getOr key
    (match options.policy.getD stack.settings.policy with
    | .cacheAside => stack.loadWith key loader ttl
    | .singleFlight =>
      share (stack.fullKey key) (stack.getOr key (stack.loadWith key loader ttl)))

end Stack

end StackedCache

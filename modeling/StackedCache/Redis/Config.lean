import StackedCache.Config.Decode
import StackedCache.Error
import StackedCache.Redis.Address

/-!
# Redis configuration

How to reach a server, and why a connection is not even tried.
-/

namespace StackedCache.Redis

structure Config where
  enabled : Bool := false
  url : String := "redis://localhost:6379"
  poolSize : UInt64 := 10
  timeoutMs : UInt64 := 5000
  deriving DecidableEq, Inhabited

inductive ConfigFault where
  | blankUrl
  | emptyPool
  | noTimeout
  deriving DecidableEq

def ConfigFault.message : ConfigFault → String
  | .blankUrl => "redis.url must not be empty"
  | .emptyPool => "redis.pool_size must be > 0"
  | .noTimeout => "redis.timeout_ms must be > 0"

inductive ConnectError where
  | disabled
  | config (reason : String)
  | badAddress
  | unreachable
  deriving DecidableEq

def ConnectError.message : ConnectError → String
  | .disabled => "redis store is disabled"
  | .config reason => "invalid redis configuration: " ++ reason
  | .badAddress => "failed to create redis pool"
  | .unreachable => "redis connection unavailable"

def ConnectError.failure (error : ConnectError) : Failure := ⟨error.message, [error.message]⟩

namespace Config

open Decode

def fault? (config : Config) : Option ConfigFault :=
  if !config.enabled then none
  else if Text.isBlank config.url then some .blankUrl
  else if config.poolSize = 0 then some .emptyPool
  else if config.timeoutMs = 0 then some .noTimeout
  else none

def ofRows? (rows : Toml.Rows) : Option Config := do
  let base : Config := {}
  let enabled ← field rows "enabled" bool? base.enabled
  let url ← field rows "url" text? base.url
  let poolSize ← field rows "pool_size" word? base.poolSize
  let timeoutMs ← field rows "timeout_ms" word? base.timeoutMs
  pure { enabled, url, poolSize, timeoutMs }

def ofToml? (document : String) : Option Config := (Toml.read? document).bind ofRows?

def openPool (config : Config) (reachable : Address → Bool) : Except ConnectError Address :=
  match config.fault? with
  | some fault => .error (.config fault.message)
  | none =>
    match Address.ofUrl? config.url with
    | none => .error .badAddress
    | some address => if reachable address then .ok address else .error .unreachable

def connect (config : Config) (reachable : Address → Bool) : Except ConnectError Address :=
  if config.enabled then config.openPool reachable else .error .disabled

end Config

end StackedCache.Redis

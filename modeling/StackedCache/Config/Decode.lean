import StackedCache.Config
import StackedCache.Toml.Document

/-!
# Reading a configuration

A configuration is a table in which every key may be missing and unknown keys
do not matter. What is there overlays the defaults and has to be of its type.
A missing prefix, report interval or time bound is what a text or a number is by
itself: empty, or zero.
-/

namespace StackedCache

open Toml

mutual
def Toml.Value.fitsWords : Value → Bool
  | .integer n => -2 ^ 63 ≤ n && n < 2 ^ 64
  | .array items => itemsFitWords items
  | .table _ rows => rowsFitWords rows
  | .tables items => tablesFitWords items
  | _ => true
def itemsFitWords : List Value → Bool
  | [] => true
  | item :: items => item.fitsWords && itemsFitWords items
def rowsFitWords : List (String × Value) → Bool
  | [] => true
  | (_, v) :: rows => v.fitsWords && rowsFitWords rows
def tablesFitWords : List (List (String × Value)) → Bool
  | [] => true
  | rows :: tables => rowsFitWords rows && tablesFitWords tables
end

namespace Decode

def bool? : Value → Option Bool
  | .boolean b => some b
  | _ => none

def text? : Value → Option String
  | .string text => some text
  | _ => none

def word? : Value → Option UInt64
  | .integer n => if 0 ≤ n ∧ n < 2 ^ 64 then some (UInt64.ofNat n.toNat) else none
  | _ => none

def double? : Value → Option Binary64
  | .float d => some d
  | .integer n => if -2 ^ 63 ≤ n ∧ n < 2 ^ 64 then some (.ofRat n) else none
  | _ => none

/-- A policy is named by a text, or by the only key of a table that holds nothing. -/
def policy? : Value → Option ReadPolicy
  | .string name => ReadPolicy.ofName? name
  | .table _ [(name, .table _ [])] | .table _ [(name, .array [])] => ReadPolicy.ofName? name
  | _ => none

def field {α : Type} (rows : Rows) (key : String) (read : Value → Option α) (default : α) : Option α :=
  match rows.get? key with
  | none => some default
  | some v => read v

def place {α : Type} (items : List Value) (index : Nat) (read : Value → Option α) (default : α) :
    Option α :=
  match items[index]? with
  | none => some default
  | some v => read v

def memory? (rows : Rows) : Option MemoryConfig := do
  let base : MemoryConfig := {}
  let maxEntries ← field rows "max_entries" word? base.maxEntries
  let cleanIntervalMs ← field rows "clean_interval_ms" word? base.cleanIntervalMs
  let statsIntervalMs ← field rows "stats_interval_ms" word? 0
  pure { maxEntries, cleanIntervalMs, statsIntervalMs }

def network? (rows : Rows) : Option NetworkConfig := do
  let base : NetworkConfig := {}
  let store ← field rows "store" text? base.store
  let opTimeoutMs ← field rows "op_timeout_ms" word? 0
  pure { store, opTimeoutMs }

inductive LayerKind where
  | memory
  | networked
  deriving DecidableEq

def layerKind? (name : String) : Option LayerKind :=
  if name = "memory" then some .memory
  else if name = "networked" ∨ name = "redis" then some .networked
  else none

/-- A layer as a table, with its kind under `type`. Integers of more than 64 bits are
refused here even under unknown keys. -/
def layerTable? (rows : Rows) : Option LayerConfig := do
  guard (rowsFitWords rows)
  let kind ← layerKind? (← text? (← rows.get? "type"))
  match kind with
  | .memory => (memory? rows).map .memory
  | .networked => (network? rows).map .networked

def layerArray? (items : List Value) : Option LayerConfig := do
  guard (itemsFitWords items)
  match items with
  | [] => none
  | kind :: settings =>
    match ← layerKind? (← text? kind) with
    | .memory =>
      guard (settings.length ≤ 3)
      let base : MemoryConfig := {}
      let maxEntries ← place settings 0 word? base.maxEntries
      let cleanIntervalMs ← place settings 1 word? base.cleanIntervalMs
      let statsIntervalMs ← place settings 2 word? 0
      pure (.memory { maxEntries, cleanIntervalMs, statsIntervalMs })
    | .networked =>
      guard (settings.length ≤ 2)
      let base : NetworkConfig := {}
      let store ← place settings 0 text? base.store
      let opTimeoutMs ← place settings 1 word? 0
      pure (.networked { store, opTimeoutMs })

def layer? : Value → Option LayerConfig
  | .table _ rows => layerTable? rows
  | .array items => layerArray? items
  | _ => none

def layers? : Value → Option (List LayerConfig)
  | .array items => items.mapM layer?
  | .tables items => items.mapM layerTable?
  | _ => none

end Decode

namespace CacheConfig

open Decode

def ofRows? (rows : Rows) : Option CacheConfig := do
  let base : CacheConfig := {}
  let enabled ← field rows "enabled" bool? base.enabled
  let keyPrefix ← field rows "key_prefix" text? ""
  let defaultTtlMs ← field rows "default_ttl_ms" word? base.defaultTtlMs
  let jitter ← field rows "jitter_percent" double? base.jitter
  let negativeTtlMs ← field rows "negative_ttl_ms" word? base.negativeTtlMs
  let readPolicy ← field rows "read_policy" policy? base.readPolicy
  let layers ← field rows "layers" layers? base.layers
  pure { enabled, keyPrefix, defaultTtlMs, jitter, negativeTtlMs, readPolicy, layers }

def ofToml? (document : String) : Option CacheConfig := (Toml.read? document).bind ofRows?

end CacheConfig

end StackedCache

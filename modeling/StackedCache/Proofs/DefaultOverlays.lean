import Mathlib.Data.List.Forall2
import StackedCache.Proofs.TableEdits

/-!
# Settings over defaults

A table of settings overlays the defaults: what it has under a key has to be of
the kind that belongs there, and what it leaves out is as by default. A
configuration is read from a table exactly if it is the defaults overlaid with
it, unless an integer of more than 64 bits stands where it is looked at.
-/

namespace StackedCache

open Toml Decode

/-- An array of tables, each with a header of its own or in the array as a table in braces. -/
inductive Toml.Value.ArrayOfTables : Value → List Rows → Prop
  | headed (tables : List Rows) : ArrayOfTables (.tables tables) tables
  | listed {items : List Value} {tables : List Rows}
      (h : List.Forall₂ (fun item rows => ∃ origin, item = .table origin rows) items tables) :
      ArrayOfTables (.array items) tables

-- ---------------------------------------------------------------------------
-- Kinds of settings
-- ---------------------------------------------------------------------------

namespace Setting

def truth (v : Value) (b : Bool) : Prop := v = .boolean b

def text (v : Value) (s : String) : Prop := v = .string s

def word (v : Value) (w : UInt64) : Prop := v = .integer w.toNat

/-- A double as it is, or a whole number as the double nearest to it. -/
inductive number : Value → Binary64 → Prop
  | float (d : Binary64) : number (.float d) d
  | integer (n : Int) : number (.integer n) (.ofRat n)

inductive policy : Value → ReadPolicy → Prop
  | name (p : ReadPolicy) : policy (.string p.name) p
  | alias : policy (.string "cache_aside_sf") .singleFlight

end Setting

section
variable {α : Type}

/-- A setting is what the value under its key gives, or the default where the key is missing. -/
def Overlaid (rows : Rows) (key : String) (gives : Value → α → Prop) (default x : α) : Prop :=
  match rows.get? key with
  | none => x = default
  | some v => gives v x

def Typed (rows : Rows) (key : String) (gives : Value → α → Prop) : Prop :=
  ∀ v, rows.get? key = some v → ∃ x, gives v x

end

-- ---------------------------------------------------------------------------
-- Overlays
-- ---------------------------------------------------------------------------

structure MemoryConfig.Overlays (rows : Rows) (config : MemoryConfig) : Prop where
  maxEntries : Overlaid rows "max_entries" Setting.word ({} : MemoryConfig).maxEntries config.maxEntries
  cleanIntervalMs :
    Overlaid rows "clean_interval_ms" Setting.word ({} : MemoryConfig).cleanIntervalMs config.cleanIntervalMs
  statsIntervalMs :
    Overlaid rows "stats_interval_ms" Setting.word ({} : MemoryConfig).statsIntervalMs config.statsIntervalMs

structure MemoryConfig.WellTyped (rows : Rows) : Prop where
  maxEntries : Typed rows "max_entries" Setting.word
  cleanIntervalMs : Typed rows "clean_interval_ms" Setting.word
  statsIntervalMs : Typed rows "stats_interval_ms" Setting.word

structure NetworkConfig.Overlays (rows : Rows) (config : NetworkConfig) : Prop where
  store : Overlaid rows "store" Setting.text ({} : NetworkConfig).store config.store
  opTimeoutMs : Overlaid rows "op_timeout_ms" Setting.word ({} : NetworkConfig).opTimeoutMs config.opTimeoutMs

structure NetworkConfig.WellTyped (rows : Rows) : Prop where
  store : Typed rows "store" Setting.text
  opTimeoutMs : Typed rows "op_timeout_ms" Setting.word

namespace LayerConfig

def kindNames : LayerKind → List String
  | .memory => ["memory"]
  | .networked => ["networked", "redis"]

def HasKind (rows : Rows) (kind : LayerKind) : Prop :=
  ∃ name ∈ kindNames kind, rows.get? "type" = some (.string name)

inductive Overlays (rows : Rows) : LayerConfig → Prop
  | memory {config : MemoryConfig} (hkind : HasKind rows .memory) (h : config.Overlays rows) :
      Overlays rows (.memory config)
  | networked {config : NetworkConfig} (hkind : HasKind rows .networked) (h : config.Overlays rows) :
      Overlays rows (.networked config)

def WellTyped (rows : Rows) : Prop :=
  HasKind rows .memory ∧ MemoryConfig.WellTyped rows ∨
    HasKind rows .networked ∧ NetworkConfig.WellTyped rows

end LayerConfig

namespace Setting

def layers (v : Value) (given : List LayerConfig) : Prop :=
  ∃ tables, v.ArrayOfTables tables ∧ List.Forall₂ LayerConfig.Overlays tables given

end Setting

namespace CacheConfig

structure Overlays (rows : Rows) (config : CacheConfig) : Prop where
  enabled : Overlaid rows "enabled" Setting.truth ({} : CacheConfig).enabled config.enabled
  keyPrefix : Overlaid rows "key_prefix" Setting.text ({} : CacheConfig).keyPrefix config.keyPrefix
  defaultTtlMs : Overlaid rows "default_ttl_ms" Setting.word ({} : CacheConfig).defaultTtlMs config.defaultTtlMs
  jitter : Overlaid rows "jitter_percent" Setting.number ({} : CacheConfig).jitter config.jitter
  negativeTtlMs :
    Overlaid rows "negative_ttl_ms" Setting.word ({} : CacheConfig).negativeTtlMs config.negativeTtlMs
  readPolicy : Overlaid rows "read_policy" Setting.policy ({} : CacheConfig).readPolicy config.readPolicy
  layers : Overlaid rows "layers" Setting.layers ({} : CacheConfig).layers config.layers

structure WellTyped (rows : Rows) : Prop where
  enabled : Typed rows "enabled" Setting.truth
  keyPrefix : Typed rows "key_prefix" Setting.text
  defaultTtlMs : Typed rows "default_ttl_ms" Setting.word
  jitter : Typed rows "jitter_percent" Setting.number
  negativeTtlMs : Typed rows "negative_ttl_ms" Setting.word
  readPolicy : Typed rows "read_policy" Setting.policy
  layers : ∀ v tables, rows.get? "layers" = some v → v.ArrayOfTables tables →
    ∀ table ∈ tables, LayerConfig.WellTyped table

/-- Integers of 64 bits at most: as a jitter, and everywhere in the table of a layer. -/
structure Narrow (rows : Rows) : Prop where
  jitter : ∀ v, rows.get? "jitter_percent" = some v → v.Narrow
  layers : ∀ v tables, rows.get? "layers" = some v → v.ArrayOfTables tables → ∀ table ∈ tables, table.Narrow

end CacheConfig

-- ---------------------------------------------------------------------------
-- One setting
-- ---------------------------------------------------------------------------

theorem bool?_eq_some_iff {v : Value} {b : Bool} : bool? v = some b ↔ Setting.truth v b := by
  cases v <;> simp [bool?, Setting.truth]

theorem text?_eq_some_iff {v : Value} {s : String} : text? v = some s ↔ Setting.text v s := by
  cases v <;> simp [text?, Setting.text]

theorem word?_eq_some_iff {v : Value} {w : UInt64} : word? v = some w ↔ Setting.word v w := by
  cases v with
  | integer n =>
    simp only [word?, Setting.word, Value.integer.injEq, Option.ite_none_right_eq_some, Option.some.injEq]
    constructor
    · rintro ⟨⟨hpos, hlt⟩, rfl⟩
      rw [UInt64.toNat_ofNat']
      omega
    · rintro rfl
      have hlt := w.toNat_lt
      exact ⟨⟨by omega, by omega⟩, by simp⟩
  | _ => simp [word?, Setting.word]

theorem double?_eq_some_iff {v : Value} {d : Binary64} :
    double? v = some d ↔ v.Narrow ∧ Setting.number v d := by
  cases v with
  | integer n =>
    have hnumber : Setting.number (.integer n) d ↔ .ofRat n = d := by
      constructor
      · rintro ⟨⟩
        rfl
      · rintro rfl
        exact .integer n
    rw [Value.narrow_integer, hnumber]
    simp [double?, FitsWord]
  | float e =>
    have hnumber : Setting.number (.float e) d ↔ e = d := by
      constructor
      · rintro ⟨⟩
        rfl
      · rintro rfl
        exact .float e
    have hnarrow : (Value.float e).Narrow := by rintro n ⟨⟩
    simp [double?, hnarrow, hnumber]
  | _ =>
    simp only [double?, reduceCtorEq, false_iff, not_and]
    rintro - ⟨⟩

theorem policy?_eq_some_iff {name : String} {p : ReadPolicy} :
    policy? (.string name) = some p ↔ Setting.policy (.string name) p := by
  constructor
  · intro h
    simp only [policy?, ReadPolicy.ofName?] at h
    split at h
    · cases h
      subst name
      exact .name .cacheAside
    · split at h
      · rename_i hname
        cases h
        rcases hname with rfl | rfl
        · exact .name .singleFlight
        · exact .alias
      · cases h
  · rintro (_ | _)
    · cases p <;> rfl
    · rfl

section
variable {α : Type} {rows : Rows} {key : String} {read : Value → Option α} {gives : Value → α → Prop}
  {default x : α}

theorem field_eq_some_iff (h : ∀ v, rows.get? key = some v → ∀ x, read v = some x ↔ gives v x) :
    field rows key read default = some x ↔ Overlaid rows key gives default x := by
  unfold field Overlaid
  cases hv : rows.get? key with
  | none => simp [eq_comm]
  | some v => exact h v hv x

theorem exists_overlaid_iff : (∃ x, Overlaid rows key gives default x) ↔ Typed rows key gives := by
  unfold Overlaid Typed
  cases rows.get? key with
  | none => simp
  | some v => simp

theorem overlaid_and_iff {fits : Value → Prop} :
    Overlaid rows key (fun v x => fits v ∧ gives v x) default x ↔
      (∀ v, rows.get? key = some v → fits v) ∧ Overlaid rows key gives default x := by
  unfold Overlaid
  cases rows.get? key with
  | none => simp
  | some v => simp

end

-- ---------------------------------------------------------------------------
-- Layers
-- ---------------------------------------------------------------------------

section
variable {rows : Rows}

theorem memory?_eq_some_iff {config : MemoryConfig} : memory? rows = some config ↔ config.Overlays rows := by
  simp only [memory?, Option.bind_eq_bind, Option.bind_eq_some_iff, field_eq_some_iff fun v _ _ => word?_eq_some_iff,
    Option.pure_def, Option.some.injEq]
  constructor
  · rintro ⟨_, hmax, _, hclean, _, hstats, rfl⟩
    exact ⟨hmax, hclean, hstats⟩
  · rintro ⟨hmax, hclean, hstats⟩
    exact ⟨_, hmax, _, hclean, _, hstats, rfl⟩

theorem exists_memory_overlays_iff :
    (∃ config : MemoryConfig, config.Overlays rows) ↔ MemoryConfig.WellTyped rows := by
  constructor
  · rintro ⟨config, hmax, hclean, hstats⟩
    exact ⟨exists_overlaid_iff.mp ⟨_, hmax⟩, exists_overlaid_iff.mp ⟨_, hclean⟩,
      exists_overlaid_iff.mp ⟨_, hstats⟩⟩
  · rintro ⟨hmax, hclean, hstats⟩
    obtain ⟨maxEntries, hmax⟩ := exists_overlaid_iff.mpr hmax
    obtain ⟨cleanIntervalMs, hclean⟩ := exists_overlaid_iff.mpr hclean
    obtain ⟨statsIntervalMs, hstats⟩ := exists_overlaid_iff.mpr hstats
    exact ⟨⟨maxEntries, cleanIntervalMs, statsIntervalMs⟩, hmax, hclean, hstats⟩

theorem network?_eq_some_iff {config : NetworkConfig} : network? rows = some config ↔ config.Overlays rows := by
  simp only [network?, Option.bind_eq_bind, Option.bind_eq_some_iff, field_eq_some_iff fun v _ _ => word?_eq_some_iff,
    field_eq_some_iff fun v _ _ => text?_eq_some_iff, Option.pure_def, Option.some.injEq]
  constructor
  · rintro ⟨_, hstore, _, htimeout, rfl⟩
    exact ⟨hstore, htimeout⟩
  · rintro ⟨hstore, htimeout⟩
    exact ⟨_, hstore, _, htimeout, rfl⟩

theorem exists_network_overlays_iff :
    (∃ config : NetworkConfig, config.Overlays rows) ↔ NetworkConfig.WellTyped rows := by
  constructor
  · rintro ⟨config, hstore, htimeout⟩
    exact ⟨exists_overlaid_iff.mp ⟨_, hstore⟩, exists_overlaid_iff.mp ⟨_, htimeout⟩⟩
  · rintro ⟨hstore, htimeout⟩
    obtain ⟨store, hstore⟩ := exists_overlaid_iff.mpr hstore
    obtain ⟨opTimeoutMs, htimeout⟩ := exists_overlaid_iff.mpr htimeout
    exact ⟨⟨store, opTimeoutMs⟩, hstore, htimeout⟩

def kind? (rows : Rows) : Option LayerKind := ((rows.get? "type").bind text?).bind layerKind?

theorem layerKind?_eq_some_iff {name : String} {kind : LayerKind} :
    layerKind? name = some kind ↔ name ∈ LayerConfig.kindNames kind := by
  unfold layerKind?
  cases kind with
  | memory =>
    simp only [LayerConfig.kindNames, List.mem_singleton]
    split
    · simp [*]
    · split <;> simp [*]
  | networked =>
    simp only [LayerConfig.kindNames, List.mem_cons, List.not_mem_nil, or_false]
    split
    · subst name
      decide
    · split <;> simp [*]

theorem kind?_eq_some_iff {kind : LayerKind} : kind? rows = some kind ↔ LayerConfig.HasKind rows kind := by
  simp only [kind?, Option.bind_eq_some_iff, text?_eq_some_iff, layerKind?_eq_some_iff, Setting.text,
    LayerConfig.HasKind]
  constructor
  · rintro ⟨name, ⟨_, hv, rfl⟩, hname⟩
    exact ⟨name, hname, hv⟩
  · rintro ⟨name, hname, hv⟩
    exact ⟨name, ⟨_, hv, rfl⟩, hname⟩

theorem layerTable?_eq (rows : Rows) : layerTable? rows =
    if rowsFitWords rows then
      match kind? rows with
      | none => none
      | some .memory => (memory? rows).map .memory
      | some .networked => (network? rows).map .networked
    else none := by
  unfold layerTable? kind?
  cases rowsFitWords rows with
  | false => rfl
  | true =>
    cases rows.get? "type" with
    | none => rfl
    | some v =>
      dsimp only [Option.bind_eq_bind, Option.bind_some]
      cases text? v with
      | none => rfl
      | some name =>
        dsimp only [Option.bind_some]
        cases layerKind? name with
        | none => rfl
        | some kind => cases kind <;> rfl

theorem layerTable?_eq_some_iff {layer : LayerConfig} :
    layerTable? rows = some layer ↔ rows.Narrow ∧ LayerConfig.Overlays rows layer := by
  rw [layerTable?_eq, ← Rows.fitWords_iff, Option.ite_none_right_eq_some]
  refine and_congr_right fun _ => ?_
  constructor
  · intro h
    cases hkind : kind? rows with
    | none => simp [hkind] at h
    | some kind =>
      cases kind with
      | memory =>
        simp only [hkind, Option.map_eq_some_iff, memory?_eq_some_iff] at h
        obtain ⟨config, hconfig, rfl⟩ := h
        exact .memory (kind?_eq_some_iff.mp hkind) hconfig
      | networked =>
        simp only [hkind, Option.map_eq_some_iff, network?_eq_some_iff] at h
        obtain ⟨config, hconfig, rfl⟩ := h
        exact .networked (kind?_eq_some_iff.mp hkind) hconfig
  · rintro (⟨hkind, hconfig⟩ | ⟨hkind, hconfig⟩)
    · rw [kind?_eq_some_iff.mpr hkind]
      exact congrArg (Option.map LayerConfig.memory) (memory?_eq_some_iff.mpr hconfig)
    · rw [kind?_eq_some_iff.mpr hkind]
      exact congrArg (Option.map LayerConfig.networked) (network?_eq_some_iff.mpr hconfig)

theorem exists_layer_overlays_iff : (∃ layer, LayerConfig.Overlays rows layer) ↔ LayerConfig.WellTyped rows := by
  constructor
  · rintro ⟨_, ⟨hkind, hconfig⟩ | ⟨hkind, hconfig⟩⟩
    · exact .inl ⟨hkind, exists_memory_overlays_iff.mp ⟨_, hconfig⟩⟩
    · exact .inr ⟨hkind, exists_network_overlays_iff.mp ⟨_, hconfig⟩⟩
  · rintro (⟨hkind, htyped⟩ | ⟨hkind, htyped⟩)
    · obtain ⟨config, hconfig⟩ := exists_memory_overlays_iff.mpr htyped
      exact ⟨_, .memory hkind hconfig⟩
    · obtain ⟨config, hconfig⟩ := exists_network_overlays_iff.mpr htyped
      exact ⟨_, .networked hkind hconfig⟩

end

-- ---------------------------------------------------------------------------
-- Arrays of tables
-- ---------------------------------------------------------------------------

theorem mapM_eq_some_iff {α β : Type} {f : α → Option β} {xs : List α} {ys : List β} :
    xs.mapM f = some ys ↔ List.Forall₂ (fun x y => f x = some y) xs ys := by
  induction xs generalizing ys with
  | nil => simp [eq_comm]
  | cons x xs ih =>
    simp only [List.mapM_cons, Option.bind_eq_bind, Option.bind_eq_some_iff, Option.pure_def, Option.some.injEq,
      ih, List.forall₂_cons_left_iff]
    constructor
    · rintro ⟨y, hy, ys, hys, rfl⟩
      exact ⟨y, ys, hy, hys, rfl⟩
    · rintro ⟨y, ys, hy, hys, rfl⟩
      exact ⟨y, hy, ys, hys, rfl⟩

theorem exists_forall₂_iff {α β : Type} {R : α → β → Prop} {xs : List α} :
    (∃ ys, List.Forall₂ R xs ys) ↔ ∀ x ∈ xs, ∃ y, R x y := by
  constructor
  · rintro ⟨ys, h⟩
    induction h with
    | nil => simp
    | cons h _ ih => exact List.forall_mem_cons.mpr ⟨⟨_, h⟩, ih⟩
  · intro h
    induction xs with
    | nil => exact ⟨[], .nil⟩
    | cons x xs ih =>
      obtain ⟨⟨y, hy⟩, hrest⟩ := List.forall_mem_cons.mp h
      obtain ⟨ys, hys⟩ := ih hrest
      exact ⟨y :: ys, .cons hy hys⟩

theorem mapM_congr {α β γ : Type} {f : α → Option γ} {g : β → Option γ} {xs : List α} {ys : List β}
    (h : List.Forall₂ (fun x y => f x = g y) xs ys) : xs.mapM f = ys.mapM g := by
  induction h with
  | nil => rfl
  | cons h _ ih => simp only [List.mapM_cons, h, ih]

theorem layers?_eq {v : Value} {tables : List Rows} (h : v.ArrayOfTables tables) :
    layers? v = tables.mapM layerTable? := by
  cases h with
  | headed => rfl
  | listed h =>
    refine mapM_congr (h.imp ?_)
    rintro _ rows ⟨origin, rfl⟩
    rfl

theorem Toml.Value.ArrayOfTables.unique {v : Value} {tables tables' : List Rows} (h : v.ArrayOfTables tables)
    (h' : v.ArrayOfTables tables') : tables = tables' := by
  cases h with
  | headed =>
    cases h'
    rfl
  | listed h =>
    cases h' with
    | listed h' =>
      refine List.right_unique_forall₂' ?_ h h'
      rintro _ _ _ ⟨_, rfl⟩ ⟨_, heq⟩
      cases heq
      rfl

theorem layers?_eq_some_iff {v : Value} {tables : List Rows} (h : v.ArrayOfTables tables)
    {given : List LayerConfig} :
    layers? v = some given ↔ (∀ table ∈ tables, table.Narrow) ∧ Setting.layers v given := by
  have hlayers : Setting.layers v given ↔ List.Forall₂ LayerConfig.Overlays tables given := by
    constructor
    · rintro ⟨tables', h', hgiven⟩
      rwa [h.unique h']
    · intro hgiven
      exact ⟨tables, h, hgiven⟩
  rw [layers?_eq h, mapM_eq_some_iff, hlayers, ← List.forall₂_and_left]
  simp only [layerTable?_eq_some_iff]

-- ---------------------------------------------------------------------------
-- Caches
-- ---------------------------------------------------------------------------

namespace CacheConfig

section
variable {rows : Rows}
  (hpolicy : ∀ v, rows.get? "read_policy" = some v → ∃ name, v = .string name)
  (hlayers : ∀ v, rows.get? "layers" = some v → ∃ tables, v.ArrayOfTables tables)
include hpolicy hlayers

/-- A configuration is read from a table exactly if it overlays the defaults with it, unless
there is an integer too wide where it counts. -/
theorem ofRows?_eq_some_iff {config : CacheConfig} :
    ofRows? rows = some config ↔ Narrow rows ∧ config.Overlays rows := by
  have hjitter (d : Binary64) : field rows "jitter_percent" double? ({} : CacheConfig).jitter = some d ↔
      (∀ v, rows.get? "jitter_percent" = some v → v.Narrow) ∧
        Overlaid rows "jitter_percent" Setting.number ({} : CacheConfig).jitter d := by
    rw [← overlaid_and_iff]
    exact field_eq_some_iff fun v _ d => double?_eq_some_iff
  have hwide (given : List LayerConfig) : field rows "layers" layers? ({} : CacheConfig).layers = some given ↔
      (∀ v, rows.get? "layers" = some v →
        ∀ tables, v.ArrayOfTables tables → ∀ table ∈ tables, table.Narrow) ∧
        Overlaid rows "layers" Setting.layers ({} : CacheConfig).layers given := by
    rw [← overlaid_and_iff]
    refine field_eq_some_iff fun v hv given => ?_
    obtain ⟨tables, htables⟩ := hlayers v hv
    rw [layers?_eq_some_iff htables]
    refine and_congr_left fun _ => ⟨?_, fun h => h tables htables⟩
    intro h tables' htables'
    rwa [htables.unique htables'] at h
  have hnamed (p : ReadPolicy) : field rows "read_policy" policy? ({} : CacheConfig).readPolicy = some p ↔
      Overlaid rows "read_policy" Setting.policy ({} : CacheConfig).readPolicy p := by
    refine field_eq_some_iff fun v hv p => ?_
    obtain ⟨name, rfl⟩ := hpolicy v hv
    exact policy?_eq_some_iff
  simp only [ofRows?, Option.bind_eq_bind, Option.bind_eq_some_iff,
    field_eq_some_iff fun v _ _ => word?_eq_some_iff, field_eq_some_iff fun v _ _ => text?_eq_some_iff,
    field_eq_some_iff fun v _ _ => bool?_eq_some_iff,
    hjitter, hwide, hnamed, Option.pure_def, Option.some.injEq]
  constructor
  · rintro ⟨_, henabled, _, hprefix, _, httl, _, ⟨hnarrow, hjitter⟩, _, hnegative, _, hpolicy, _,
      ⟨hwide, hlayers⟩, rfl⟩
    exact ⟨⟨hnarrow, fun v tables hv => hwide v hv tables⟩,
      henabled, hprefix, httl, hjitter, hnegative, hpolicy, hlayers⟩
  · rintro ⟨⟨hnarrow, hwide⟩, henabled, hprefix, httl, hjitter, hnegative, hpolicy, hlayers⟩
    exact ⟨_, henabled, _, hprefix, _, httl, _, ⟨hnarrow, hjitter⟩, _, hnegative, _, hpolicy, _,
      ⟨fun v hv tables => hwide v tables hv, hlayers⟩, rfl⟩

omit hpolicy in
theorem exists_overlays_iff : (∃ config : CacheConfig, config.Overlays rows) ↔ WellTyped rows := by
  have htables : Typed rows "layers" Setting.layers ↔ ∀ v tables, rows.get? "layers" = some v →
      v.ArrayOfTables tables → ∀ table ∈ tables, LayerConfig.WellTyped table := by
    simp only [← exists_layer_overlays_iff, ← exists_forall₂_iff]
    constructor
    · intro h v tables hv htables
      obtain ⟨given, tables', htables', hgiven⟩ := h v hv
      rw [htables.unique htables']
      exact ⟨given, hgiven⟩
    · intro h v hv
      obtain ⟨tables, htables⟩ := hlayers v hv
      obtain ⟨given, hgiven⟩ := h v tables hv htables
      exact ⟨given, tables, htables, hgiven⟩
  constructor
  · rintro ⟨config, henabled, hprefix, httl, hjitter, hnegative, hpolicy, hlayers⟩
    exact ⟨exists_overlaid_iff.mp ⟨_, henabled⟩, exists_overlaid_iff.mp ⟨_, hprefix⟩,
      exists_overlaid_iff.mp ⟨_, httl⟩, exists_overlaid_iff.mp ⟨_, hjitter⟩,
      exists_overlaid_iff.mp ⟨_, hnegative⟩, exists_overlaid_iff.mp ⟨_, hpolicy⟩,
      htables.mp (exists_overlaid_iff.mp ⟨_, hlayers⟩)⟩
  · rintro ⟨henabled, hprefix, httl, hjitter, hnegative, hpolicy, hlayers⟩
    obtain ⟨enabled, henabled⟩ := exists_overlaid_iff.mpr henabled
    obtain ⟨keyPrefix, hprefix⟩ := exists_overlaid_iff.mpr hprefix
    obtain ⟨defaultTtlMs, httl⟩ := exists_overlaid_iff.mpr httl
    obtain ⟨jitter, hjitter⟩ := exists_overlaid_iff.mpr hjitter
    obtain ⟨negativeTtlMs, hnegative⟩ := exists_overlaid_iff.mpr hnegative
    obtain ⟨readPolicy, hpolicy⟩ := exists_overlaid_iff.mpr hpolicy
    obtain ⟨layers, hlayers⟩ := exists_overlaid_iff.mpr (htables.mpr hlayers)
    exact ⟨⟨enabled, keyPrefix, defaultTtlMs, jitter, negativeTtlMs, readPolicy, layers⟩,
      henabled, hprefix, httl, hjitter, hnegative, hpolicy, hlayers⟩

end

end CacheConfig

end StackedCache

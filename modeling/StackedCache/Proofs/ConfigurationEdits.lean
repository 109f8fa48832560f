import Mathlib.Logic.Relation
import StackedCache.Proofs.DefaultOverlays

/-!
# Edits of configurations

The same configuration is read from a table after its keys have been put in
another order, unknown keys have come in, or a name has been given for another
name of the same thing, both in the table itself and in the tables of layers.
-/

namespace StackedCache

open Toml Decode Relation

namespace LayerConfig

def kindKeys : LayerKind → List String
  | .memory => ["max_entries", "clean_interval_ms", "stats_interval_ms"]
  | .networked => ["store", "op_timeout_ms"]

def Known (rows : Rows) (key : String) : Prop :=
  key = "type" ∨ ∃ kind, HasKind rows kind ∧ key ∈ kindKeys kind

inductive Alike : String → Value → Value → Prop
  | kind : Alike "type" (.string "redis") (.string "networked")

/-- One edit of the table of a layer. Nothing wide may come in, also not under an unknown key. -/
def Edit (rows rows' : Rows) : Prop := Rows.Edit (Known rows) Value.Narrow Alike rows rows'

end LayerConfig

namespace CacheConfig

def keys : List String :=
  ["enabled", "key_prefix", "default_ttl_ms", "jitter_percent", "negative_ttl_ms", "read_policy", "layers"]

inductive Alike : String → Value → Value → Prop
  | policy : Alike "read_policy" (.string "cache_aside_sf") (.string "cache_aside_singleflight")
  | layers {v v' : Value} {tables tables' : List Rows} (hv : v.ArrayOfTables tables)
      (hv' : v'.ArrayOfTables tables') (h : List.Forall₂ (ReflTransGen LayerConfig.Edit) tables tables') :
      Alike "layers" v v'

def Edit (rows rows' : Rows) : Prop := Rows.Edit (· ∈ keys) (fun _ => True) Alike rows rows'

end CacheConfig

theorem field_edit {α : Type} {read : Value → Option α} {default : α} {key : String}
    {Known : String → Prop} {Harmless : Value → Prop} {Alike : String → Value → Value → Prop}
    {rows rows' : Rows} (h : Rows.Edit Known Harmless Alike rows rows') (hkey : Known key)
    (hread : ∀ v v', Alike key v v' → read v' = read v) :
    field rows' key read default = field rows key read default := by
  unfold field
  rcases h.get? hkey with hsame | ⟨v, v', halike, hv, hv'⟩
  · rw [hsame]
  · rw [hv, hv']
    exact hread v v' halike

-- ---------------------------------------------------------------------------
-- Layers
-- ---------------------------------------------------------------------------

namespace LayerConfig

section
variable {rows rows' : Rows} (h : Edit rows rows')
include h

theorem Edit.fitWords : rowsFitWords rows' = rowsFitWords rows := by
  rw [Bool.eq_iff_iff, Rows.fitWords_iff, Rows.fitWords_iff]
  refine Rows.Edit.narrow_iff h (fun _ hv => hv) ?_
  rintro _ _ _ ⟨⟩
  constructor <;> rintro _ _ ⟨⟩

theorem Edit.kind : kind? rows' = kind? rows := by
  unfold kind?
  rcases Rows.Edit.get? h (.inl rfl) with hsame | ⟨v, v', ⟨⟩, hv, hv'⟩
  · rw [hsame]
  · rw [hv, hv']
    rfl

theorem Edit.field {α : Type} {kind : LayerKind} (hkind : kind? rows = some kind) {key : String}
    (hkey : key ∈ kindKeys kind) (read : Value → Option α) (default : α) :
    Decode.field rows' key read default = Decode.field rows key read default := by
  refine field_edit h (.inr ⟨kind, kind?_eq_some_iff.mp hkind, hkey⟩) ?_
  rintro v v' ⟨⟩
  cases kind <;> simp [kindKeys] at hkey

theorem Edit.layerTable : layerTable? rows' = layerTable? rows := by
  rw [layerTable?_eq, layerTable?_eq, Edit.fitWords h, Edit.kind h]
  cases hkind : kind? rows with
  | none => rfl
  | some kind =>
    have hfield {α : Type} (key : String) (hkey : key ∈ kindKeys kind) := h.field (α := α) hkind hkey
    cases kind with
    | memory =>
      rw [memory?, memory?, hfield "max_entries" (by decide), hfield "clean_interval_ms" (by decide),
        hfield "stats_interval_ms" (by decide)]
    | networked => rw [network?, network?, hfield "store" (by decide), hfield "op_timeout_ms" (by decide)]

end

end LayerConfig

-- ---------------------------------------------------------------------------
-- Caches
-- ---------------------------------------------------------------------------

namespace CacheConfig

theorem mapM_edited {tables tables' : List Rows}
    (h : List.Forall₂ (ReflTransGen LayerConfig.Edit) tables tables') :
    tables'.mapM layerTable? = tables.mapM layerTable? := by
  refine (mapM_congr (h.imp ?_)).symm
  intro rows rows' hedits
  induction hedits with
  | refl => rfl
  | tail _ hedit ih => rw [ih, hedit.layerTable]

section
variable {rows rows' : Rows} (h : Edit rows rows')
include h

theorem Edit.policy (default : ReadPolicy) :
    Decode.field rows' "read_policy" policy? default = Decode.field rows "read_policy" policy? default := by
  refine field_edit h (by decide) fun v v' halike => ?_
  generalize hkey : "read_policy" = key at halike
  cases halike with
  | policy => rfl
  | layers => simp at hkey

theorem Edit.layers (default : List LayerConfig) :
    Decode.field rows' "layers" layers? default = Decode.field rows "layers" layers? default := by
  refine field_edit h (by decide) fun v v' halike => ?_
  generalize hkey : "layers" = key at halike
  cases halike with
  | policy => simp at hkey
  | layers hv hv' hedited => rw [layers?_eq hv, layers?_eq hv', mapM_edited hedited]

theorem Edit.field {α : Type} {key : String} (hkey : key ∈ keys) (hpolicy : key ≠ "read_policy")
    (hlayers : key ≠ "layers") (read : Value → Option α) (default : α) :
    Decode.field rows' key read default = Decode.field rows key read default := by
  refine field_edit h hkey ?_
  rintro _ _ (_ | _)
  · exact absurd rfl hpolicy
  · exact absurd rfl hlayers

theorem Edit.ofRows : ofRows? rows' = ofRows? rows := by
  have hfield {α : Type} (key : String) (hkey : key ∈ keys) (hpolicy : key ≠ "read_policy")
      (hlayers : key ≠ "layers") := h.field (α := α) hkey hpolicy hlayers
  simp only [ofRows?, hfield "enabled" (by decide) (by decide) (by decide),
    hfield "key_prefix" (by decide) (by decide) (by decide),
    hfield "default_ttl_ms" (by decide) (by decide) (by decide),
    hfield "jitter_percent" (by decide) (by decide) (by decide),
    hfield "negative_ttl_ms" (by decide) (by decide) (by decide), h.policy, h.layers]

end

end CacheConfig

-- ---------------------------------------------------------------------------
-- Configurations
-- ---------------------------------------------------------------------------

/-- A table is read exactly if what it has is well typed and nothing is too wide; the settings are
the defaults overlaid with it; edits that do not matter change nothing. Tables of documents have
distinct keys, and what is read from a document is read from its table. -/
theorem configuration_overlays_defaults (rows : Rows)
    (hpolicy : ∀ v, rows.get? "read_policy" = some v → ∃ name, v = .string name)
    (hlayers : ∀ v, rows.get? "layers" = some v → ∃ tables, v.ArrayOfTables tables) :
    ((∃ config, CacheConfig.ofRows? rows = some config) ↔
      CacheConfig.Narrow rows ∧ CacheConfig.WellTyped rows) ∧
    (∀ config, CacheConfig.ofRows? rows = some config ↔ CacheConfig.Narrow rows ∧ config.Overlays rows) ∧
    (∀ rows', ReflTransGen CacheConfig.Edit rows rows' →
      CacheConfig.ofRows? rows' = CacheConfig.ofRows? rows) ∧
    ∀ document, Toml.read? document = some rows →
      rows.Keyed ∧ CacheConfig.ofToml? document = CacheConfig.ofRows? rows := by
  have hread (config : CacheConfig) : CacheConfig.ofRows? rows = some config ↔
      CacheConfig.Narrow rows ∧ config.Overlays rows :=
    CacheConfig.ofRows?_eq_some_iff hpolicy hlayers
  refine ⟨?_, hread, ?_, ?_⟩
  · rw [← CacheConfig.exists_overlays_iff hlayers, ← exists_and_left]
    exact exists_congr hread
  · intro rows' hedits
    induction hedits with
    | refl => rfl
    | tail _ hedit ih => rw [hedit.ofRows, ih]
  · intro document hdocument
    exact ⟨read?_keyed hdocument, by rw [CacheConfig.ofToml?, hdocument, Option.bind_some]⟩

def aliased : Rows :=
  [("read_policy", .string "cache_aside_sf"), ("layers", .tables [[("type", .string "redis")]])]

/-- The same with the first names, in another order and with keys that do not count, one of which
counts for layers of the other kind. -/
def unaliased : Rows :=
  [("layers", .tables [[("max_entries", .boolean true), ("type", .string "networked")]]),
   ("comment", .integer (2 ^ 100)), ("read_policy", .string "cache_aside_singleflight")]

theorem aliased_edits : ReflTransGen CacheConfig.Edit aliased unaliased := by
  have hkind : LayerConfig.Edit [("type", .string "redis")] [("type", .string "networked")] :=
    .respell [] [] .kind
  have hunknown : ¬LayerConfig.Known [("type", .string "networked")] "max_entries" := by
    rintro (hkey | ⟨kind, ⟨name, hname, htype⟩, hkey⟩)
    · simp at hkey
    · cases kind with
      | memory =>
        cases List.mem_singleton.mp hname
        simp [Rows.get?] at htype
      | networked => simp [LayerConfig.kindKeys] at hkey
  have hentries : LayerConfig.Edit [("type", .string "networked")]
      [("max_entries", .boolean true), ("type", .string "networked")] :=
    .extend [] _ hunknown (by rintro _ ⟨⟩)
  have hlayers : CacheConfig.Alike "layers" (.tables [[("type", .string "redis")]])
      (.tables [[("max_entries", .boolean true), ("type", .string "networked")]]) :=
    .layers (.headed _) (.headed _) (.cons (.tail (.single hkind) hentries) .nil)
  have hpolicy : CacheConfig.Edit aliased
      [("read_policy", .string "cache_aside_singleflight"), ("layers", .tables [[("type", .string "redis")]])] :=
    .respell [] _ .policy
  have hcomment : CacheConfig.Edit
      [("read_policy", .string "cache_aside_singleflight"),
       ("layers", .tables [[("max_entries", .boolean true), ("type", .string "networked")]])]
      [("read_policy", .string "cache_aside_singleflight"), ("comment", .integer (2 ^ 100)),
       ("layers", .tables [[("max_entries", .boolean true), ("type", .string "networked")]])] :=
    .extend [_] [_] (by decide) trivial
  have horder : CacheConfig.Edit
      [("read_policy", .string "cache_aside_singleflight"), ("comment", .integer (2 ^ 100)),
       ("layers", .tables [[("max_entries", .boolean true), ("type", .string "networked")]])] unaliased :=
    .reorder (by simp [Rows.Distinct]) (List.reverse_perm _).symm
  exact .tail (.tail (.tail (.single hpolicy) (.respell [_] [] hlayers)) hcomment) horder

/-- Both are read as one networked layer under the default settings. -/
theorem configuration_overlays_defaults_aliased :
    (∀ v, aliased.get? "read_policy" = some v → ∃ name, v = .string name) ∧
    (∀ v, aliased.get? "layers" = some v → ∃ tables, v.ArrayOfTables tables) ∧
    CacheConfig.ofRows? aliased = some { layers := [.networked {}] } ∧
    CacheConfig.ofRows? unaliased = CacheConfig.ofRows? aliased := by
  have hpolicy : ∀ v, aliased.get? "read_policy" = some v → ∃ name, v = .string name := by
    rintro v ⟨⟩
    exact ⟨_, rfl⟩
  have hlayers : ∀ v, aliased.get? "layers" = some v → ∃ tables, v.ArrayOfTables tables := by
    rintro v ⟨⟩
    exact ⟨_, .headed _⟩
  obtain ⟨-, hread, hedits, -⟩ := configuration_overlays_defaults aliased hpolicy hlayers
  exact ⟨hpolicy, hlayers, by decide +kernel, hedits unaliased aliased_edits⟩

/-- A layer is refused for an integer of more than 64 bits under a key that it does not know. -/
theorem wide_integer_refused :
    CacheConfig.WellTyped [("layers", .tables [[("type", .string "memory"), ("x", .integer (-2 ^ 63 - 1))]])] ∧
    CacheConfig.ofRows? [("layers", .tables [[("type", .string "memory"), ("x", .integer (-2 ^ 63 - 1))]])] = none ∧
    CacheConfig.ofRows? [("layers", .tables [[("type", .string "memory")]])] = some {} := by
  refine ⟨?_, by decide +kernel, by decide +kernel⟩
  constructor
  case layers =>
    rintro v tables ⟨⟩ ⟨⟩ table htable
    cases List.mem_singleton.mp htable
    refine .inl ⟨⟨"memory", by decide, rfl⟩, ?_⟩
    constructor <;> rintro v ⟨⟩
  all_goals rintro v ⟨⟩

end StackedCache

import StackedCache.Cache.Plan

/-!
# Plans of caches

What is wrong with a configuration, the most pressing first: its jitter, its
default time to live, no layers at all, blank names of stores, and stores that
are not there. A plan fails with the first violation. Without one it has a
layer for each that is configured, and a stack is built of them.
-/

namespace StackedCache

def blankStore? : LayerConfig × Nat → Option Misconfiguration
  | (.memory _, _) => none
  | (.networked config, index) => if Text.isBlank config.store then some (.blankStore index) else none

def unknownStore? (registered : String → Bool) : LayerConfig × Nat → Option Misconfiguration
  | (.memory _, _) => none
  | (.networked config, index) =>
    if registered config.store then none else some (.unknownStore config.store (layerName index))

def plannedLayer : LayerConfig × Nat → PlannedLayer
  | (.memory config, index) => .memory (layerName index) config
  | (.networked config, index) =>
    .network (.bounded (layerName index) (.ofMillis config.opTimeoutMs)) config.store

namespace CacheConfig

def faults (config : CacheConfig) : List Misconfiguration :=
  (if config.jitter.inUnitInterval then [] else [.jitterOutOfRange]) ++
  (if config.defaultTtlMs = 0 then [.noDefaultTtl] else []) ++
  (if config.layers.isEmpty then [.noLayerConfigured] else []) ++
  config.layers.zipIdx.filterMap blankStore?

/-- All violations in the order of their precedence, those of one kind by the indexes of their layers. -/
def violations (config : CacheConfig) (registered : String → Bool) : List Misconfiguration :=
  config.faults ++ config.layers.zipIdx.filterMap (unknownStore? registered)

/-- A cache can be built as it is configured. -/
structure Satisfiable (config : CacheConfig) (registered : String → Bool) : Prop where
  number : config.jitter.isNaN = false ∧ config.jitter.isInfinite = false
  jitter : 0 ≤ config.jitter.toRat ∧ config.jitter.toRat ≤ 1
  defaultTtl : 0 < config.defaultTtlMs.toNat
  layered : config.layers ≠ []
  named {layer : NetworkConfig} : .networked layer ∈ config.layers →
    ∃ c ∈ layer.store.toList, Text.isWhiteSpace c = false
  provisioned {layer : NetworkConfig} : .networked layer ∈ config.layers → registered layer.store = true

section
variable {config : CacheConfig} {registered : String → Bool}

-- ---------------------------------------------------------------------------
-- Violations
-- ---------------------------------------------------------------------------

theorem firstBlankStore?_eq (index : Nat) (layers : List LayerConfig) :
    (firstBlankStore? index layers).map .blankStore = (layers.zipIdx index).findSome? blankStore? := by
  induction layers generalizing index with
  | nil => rfl
  | cons layer layers ih =>
    cases layer with
    | memory memory => exact ih (index + 1)
    | networked network =>
      simp only [firstBlankStore?, List.zipIdx_cons, List.findSome?_cons, blankStore?]
      split
      · rfl
      · exact ih (index + 1)

theorem fault?_eq (henabled : config.enabled = true) : config.fault? = config.faults.head? := by
  unfold fault? faults
  rw [firstBlankStore?_eq]
  cases config.jitter.inUnitInterval with
  | false => rfl
  | true =>
    by_cases httl : config.defaultTtlMs = 0
    · simp [httl]
    · cases hlayers : config.layers.isEmpty with
      | true => simp [httl, henabled]
      | false => simp [httl, henabled, List.head?_filterMap]

theorem filterMap_layers_eq_nil_iff {violation? : LayerConfig × Nat → Option Misconfiguration}
    {layers : List LayerConfig} {fine : NetworkConfig → Prop}
    (hmemory : ∀ memory index, violation? (.memory memory, index) = none)
    (hnetwork : ∀ network index, violation? (.networked network, index) = none ↔ fine network) :
    layers.zipIdx.filterMap violation? = [] ↔ ∀ network, .networked network ∈ layers → fine network := by
  rw [List.filterMap_eq_nil_iff]
  constructor
  · intro h network hmem
    obtain ⟨index, hindex⟩ := List.mem_iff_getElem?.mp hmem
    exact (hnetwork network index).mp (h _ (List.mem_zipIdx_iff_getElem?.mpr hindex))
  · rintro h ⟨layer, index⟩ hrow
    cases layer with
    | memory memory => exact hmemory memory index
    | networked network =>
      have hmem := List.mem_of_getElem? (List.mem_zipIdx_iff_getElem?.mp hrow)
      exact (hnetwork network index).mpr (h network hmem)

theorem inUnitInterval_iff {d : Binary64} : d.inUnitInterval = true ↔
    (d.isNaN = false ∧ d.isInfinite = false) ∧ 0 ≤ d.toRat ∧ d.toRat ≤ 1 := by
  simp only [Binary64.inUnitInterval, Bool.and_eq_true, Bool.not_eq_true', decide_eq_true_eq, and_assoc]

theorem isBlank_eq_false_iff {text : String} :
    Text.isBlank text = false ↔ ∃ c ∈ text.toList, Text.isWhiteSpace c = false := by
  simp [Text.isBlank]

theorem violations_eq_nil_iff : config.violations registered = [] ↔ config.Satisfiable registered := by
  have hblank : config.layers.zipIdx.filterMap blankStore? = [] ↔
      ∀ network, .networked network ∈ config.layers →
        ∃ c ∈ network.store.toList, Text.isWhiteSpace c = false :=
    filterMap_layers_eq_nil_iff (fun _ _ => rfl) fun network index => by
      rw [← isBlank_eq_false_iff, blankStore?]
      cases Text.isBlank network.store <;> simp
  have hunknown : config.layers.zipIdx.filterMap (unknownStore? registered) = [] ↔
      ∀ network, .networked network ∈ config.layers → registered network.store = true :=
    filterMap_layers_eq_nil_iff (fun _ _ => rfl) fun network index => by
      rw [unknownStore?]
      cases registered network.store <;> simp
  have hjitter : (if config.jitter.inUnitInterval then [] else [Misconfiguration.jitterOutOfRange]) = [] ↔
      (config.jitter.isNaN = false ∧ config.jitter.isInfinite = false) ∧
        0 ≤ config.jitter.toRat ∧ config.jitter.toRat ≤ 1 := by
    rw [← inUnitInterval_iff]
    cases config.jitter.inUnitInterval <;> simp
  have httl : (if config.defaultTtlMs = 0 then [Misconfiguration.noDefaultTtl] else []) = [] ↔
      0 < config.defaultTtlMs.toNat := by
    rw [Nat.pos_iff_ne_zero, ← UInt64.toNat_zero, Ne, UInt64.toNat_inj]
    split <;> simp [*]
  have hlayers : (if config.layers.isEmpty then [Misconfiguration.noLayerConfigured] else []) = [] ↔
      config.layers ≠ [] := by
    cases config.layers <;> simp
  simp only [violations, faults, List.append_eq_nil_iff, hjitter, httl, hlayers, hblank, hunknown]
  constructor
  · rintro ⟨⟨⟨⟨⟨hnumber, hunit⟩, hpos⟩, hsome⟩, hnamed⟩, hprovisioned⟩
    exact ⟨hnumber, hunit, hpos, hsome, hnamed _, hprovisioned _⟩
  · rintro ⟨hnumber, hunit, hpos, hsome, hnamed, hprovisioned⟩
    exact ⟨⟨⟨⟨⟨hnumber, hunit⟩, hpos⟩, hsome⟩, fun _ => hnamed⟩, fun _ => hprovisioned⟩

-- ---------------------------------------------------------------------------
-- Plans
-- ---------------------------------------------------------------------------

theorem planLayers_eq (index : Nat) (layers : List LayerConfig) :
    planLayers registered index layers =
      match (layers.zipIdx index).findSome? (unknownStore? registered) with
      | some fault => .error fault
      | none => .ok ((layers.zipIdx index).map plannedLayer) := by
  induction layers generalizing index with
  | nil => rfl
  | cons layer layers ih =>
    cases layer with
    | memory memory =>
      simp only [planLayers, ih, List.zipIdx_cons, List.findSome?_cons, unknownStore?, List.map_cons]
      cases (layers.zipIdx (index + 1)).findSome? (unknownStore? registered) <;> rfl
    | networked network =>
      simp only [planLayers, ih, List.zipIdx_cons, List.findSome?_cons, unknownStore?, List.map_cons]
      split
      · cases (layers.zipIdx (index + 1)).findSome? (unknownStore? registered) <;> rfl
      · rfl

theorem plannedLayer_name (row : LayerConfig × Nat) : (plannedLayer row).name = layerName row.2 := by
  rcases row with ⟨layer, index⟩
  cases layer <;> rfl

end

end CacheConfig

theorem Stack.build_eq_ok {config : CacheConfig} {layers : List (String × Bool)} (hlayers : layers ≠ [])
    (hjitter : config.jitter.inUnitInterval = true) :
    ∃ stack, Stack.build config layers = .ok stack ∧ stack.settings = config.settings ∧
      stack.layerNames = layers.map Prod.fst := by
  have hsome : layers.isEmpty = false := List.isEmpty_eq_false_iff.mpr hlayers
  refine ⟨_, by simp only [build, hsome, hjitter]; rfl, rfl, ?_⟩
  have hnames : layers.zipIdx.map (Prod.fst ∘ Prod.fst) = layers.map Prod.fst := by
    rw [← List.map_map, List.zipIdx_map_fst]
  rw [layerNames, List.map_map, ← hnames]
  rfl

namespace CacheConfig

section
variable {config : CacheConfig} {registered : String → Bool}

theorem plan_disabled (h : config.enabled = false) : config.plan registered = .ok (.disabled, []) := by
  simp [plan, h]

theorem plan_eq_error (henabled : config.enabled = true) {fault : Misconfiguration}
    (h : (config.violations registered).head? = some fault) : config.plan registered = .error fault := by
  rw [violations, List.head?_append, List.head?_filterMap] at h
  unfold plan
  rw [henabled, fault?_eq henabled, planLayers_eq]
  cases hfaults : config.faults.head? with
  | some first =>
    rw [hfaults] at h
    cases h
    rfl
  | none =>
    rw [hfaults] at h
    simp only [Option.none_or] at h
    rw [h]
    rfl

theorem planned_names (rows : List (LayerConfig × Nat)) :
    (rows.map plannedLayer).map (fun layer => (layer.name, true)) =
      rows.map fun row => (layerName row.2, true) := by
  simp only [List.map_map, Function.comp_def, plannedLayer_name]

theorem plan_eq_ok (henabled : config.enabled = true) (h : config.violations registered = []) :
    ∃ stack, config.plan registered = .ok (.stacked stack, config.layers.zipIdx.map plannedLayer) ∧
      Stack.build config (config.layers.zipIdx.map fun row => (layerName row.2, true)) = .ok stack ∧
      stack.settings = config.settings ∧ stack.layerNames = (List.range config.layers.length).map layerName := by
  obtain ⟨hnumber, hunit, -, hlayers, -, -⟩ := violations_eq_nil_iff.mp h
  obtain ⟨hfaults, hunknown⟩ := List.append_eq_nil_iff.mp h
  have hsome : (config.layers.zipIdx.map fun row => (layerName row.2, true)) ≠ [] := by simpa using hlayers
  obtain ⟨stack, hbuild, hsettings, hnames⟩ :=
    Stack.build_eq_ok hsome (inUnitInterval_iff.mpr ⟨hnumber, hunit⟩)
  refine ⟨stack, ?_, hbuild, hsettings, ?_⟩
  · unfold plan
    rw [henabled, fault?_eq henabled, hfaults, planLayers_eq, ← List.head?_filterMap, hunknown]
    simp only [List.head?_nil, Bool.not_true, Bool.false_eq_true, ↓reduceIte, bind, Except.bind, planned_names, hbuild]
    rfl
  · rw [hnames, List.map_map]
    have hindex : Prod.fst ∘ (fun row : LayerConfig × Nat => (layerName row.2, true)) =
        layerName ∘ Prod.snd := rfl
    rw [hindex, ← List.map_map, List.zipIdx_map_snd, List.range_eq_range']

/-- Once its layers have been planned a stack does not refuse them. -/
theorem build_planned (henabled : config.enabled = true) (hfault : config.fault? = none)
    {planned : List PlannedLayer} (h : planLayers registered 0 config.layers = .ok planned) :
    ∃ stack, Stack.build config (planned.map fun layer => (layer.name, true)) = .ok stack := by
  rw [fault?_eq henabled, List.head?_eq_none_iff] at hfault
  rw [planLayers_eq, ← List.head?_filterMap] at h
  cases hunknown : config.layers.zipIdx.filterMap (unknownStore? registered) with
  | cons fault rest =>
    rw [hunknown] at h
    cases h
  | nil =>
    rw [hunknown] at h
    cases h
    obtain ⟨stack, -, hbuild, -⟩ := plan_eq_ok henabled (List.append_eq_nil_iff.mpr ⟨hfault, hunknown⟩)
    exact ⟨stack, planned_names _ ▸ hbuild⟩

end

end CacheConfig

end StackedCache

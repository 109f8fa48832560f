import Mathlib.Data.List.Forall2
import StackedCache.Proofs.Plans
import StackedCache.Proofs.Settings
import StackedCache.Proofs.TableSizes
import StackedCache.Simulation.Setup

/-!
# Caches as they are built

A cache is built from a configuration and the stores that are registered. It
is refused with the first violation; otherwise each layer that is configured
is there in its place, under its name, with its own capacity, or with its
store and bound.
-/

namespace StackedCache.Simulation

/-- A handle stands for a layer as it is configured: an empty memory layer of the capacity, or a
networked one over the store with the bound. -/
inductive InPlace (stores : Table StoreKind) (memories : List MemoryLayer) :
    LayerConfig × Nat → Handle → Prop
  | memory {config : MemoryConfig} {index number : Nat} {layer : MemoryLayer}
    (hlayer : memories[number]? = some layer) (hname : layer.name = layerName index)
    (hmemory : layer.memory = { limit := config.maxEntries.toNat }) :
    InPlace stores memories (.memory config, index) ⟨layerName index, .memory number, false⟩
  | network {config : NetworkConfig} {index : Nat} {kind : StoreKind}
    (hkind : stores.get? config.store = some kind) :
    InPlace stores memories (.networked config, index)
      ⟨layerName index, .network ⟨layerName index, interval? config.opTimeoutMs⟩ config.store kind, false⟩

def Handle.Apart (handle other : Handle) : Prop :=
  ∀ number, handle.place = .memory number → other.place ≠ .memory number

theorem InPlace.mono {stores : Table StoreKind} {memories : List MemoryLayer} {row : LayerConfig × Nat}
    {handle : Handle} (h : InPlace stores memories row handle) (more : List MemoryLayer) :
    InPlace stores (memories ++ more) row handle := by
  cases h with
  | memory hlayer hname hmemory =>
    have hbound := (List.getElem?_eq_some_iff.mp hlayer).1
    exact .memory (by rwa [List.getElem?_append_left hbound]) hname hmemory
  | network hkind => exact .network hkind

theorem inPlace_names {stores : Table StoreKind} {memories : List MemoryLayer}
    {rows : List (LayerConfig × Nat)} {handles : List Handle}
    (h : List.Forall₂ (InPlace stores memories) rows handles) :
    handles.map (fun handle => (handle.name, !handle.single)) = rows.map fun row => (layerName row.2, true) := by
  induction h with
  | nil => rfl
  | cons hplace _ ih =>
    rw [List.map_cons, List.map_cons, ih]
    cases hplace <;> rfl

namespace Session

-- ---------------------------------------------------------------------------
-- Memory layers
-- ---------------------------------------------------------------------------

/-- A session that differs in its machine only, and there in the last of the memory layers only, of which
name and memory are as they were. -/
structure Staffed (before : List MemoryLayer) (layer : MemoryLayer) (session after : Session) : Prop where
  memories : ∃ handles, after.world.memories = before ++ [{ layer with handles }]
  cacheLayers : after.cacheLayers = session.cacheLayers
  stores : after.stores = session.stores

section
variable {before : List MemoryLayer} {layer : MemoryLayer} {session after : Session}

theorem Staffed.addWorker (h : Staffed before layer session after) (duty : Duty) (period : Duration) :
    Staffed before layer session (after.addWorker before.length duty period) := by
  obtain ⟨handles, hmemories⟩ := h.memories
  refine ⟨⟨handles ++ [after.world.workers.length], ?_⟩, h.cacheLayers, h.stores⟩
  have hset : (after.addWorker before.length duty period).world.memories =
      after.world.memories.set before.length
        { after.world.memory before.length with
          handles := (after.world.memory before.length).handles ++ [after.world.workers.length] } := rfl
  rw [hset, World.memory, hmemories]
  simp

theorem Staffed.addWorkers (h : Staffed before layer session after) (duties : List (Duty × Duration)) :
    Staffed before layer session
      (duties.foldl (fun session (duty, period) => session.addWorker before.length duty period) after) := by
  induction duties generalizing after with
  | nil => exact h
  | cons duty duties ih => exact ih (h.addWorker duty.1 duty.2)

theorem addMemory_staffed (session : Session) (scheduler : Bool) (name : String) (limit : UInt64)
    (background : Option Background) :
    (session.addMemory scheduler name limit background).1 = .memory session.world.memories.length ∧
    Staffed session.world.memories { name, memory := { limit := limit.toNat } } session
      (session.addMemory scheduler name limit background).2 := by
  refine ⟨rfl, ?_⟩
  have hnew : Staffed session.world.memories { name, memory := { limit := limit.toNat } } session
      (session.setWorld { session.world with
        memories := session.world.memories ++ [{ name, memory := { limit := limit.toNat } }] }) :=
    ⟨⟨[], rfl⟩, rfl, rfl⟩
  unfold addMemory
  simp only
  split
  · exact hnew
  · split
    · exact ⟨hnew.memories, rfl, rfl⟩
    · exact hnew.addWorkers _

end

-- ---------------------------------------------------------------------------
-- All layers of a cache
-- ---------------------------------------------------------------------------

structure Furnished (session after : Session) (rows : List (LayerConfig × Nat)) (handles : List Handle)
    (added : List MemoryLayer) : Prop where
  cacheLayers : after.cacheLayers = session.cacheLayers ++ handles
  memories : after.world.memories = session.world.memories ++ added
  stores : after.stores = session.stores
  inPlace : List.Forall₂ (InPlace session.stores after.world.memories) rows handles
  own : ∀ handle ∈ handles, ∀ number, handle.place = .memory number →
    session.world.memories.length ≤ number ∧ number < after.world.memories.length
  apart : handles.Pairwise Handle.Apart

theorem bounded_ofMillis (name : String) (ms : UInt64) :
    Network.bounded name (.ofMillis ms) = ⟨name, interval? ms⟩ := by
  unfold Network.bounded interval?
  by_cases hms : ms = 0
  · subst hms
    rfl
  · rw [Duration.ofMillis_isZero hms, if_neg hms]
    rfl

theorem addPlanned_furnished (session : Session) (scheduler : Bool) (sink : Option Sink)
    {row : LayerConfig × Nat}
    (hrow : ∀ network, row.1 = .networked network → session.stores.contains network.store = true) :
    ∃ handle added, Furnished session (session.addPlanned scheduler sink (plannedLayer row)) [row] [handle]
      added := by
  obtain ⟨layer, index⟩ := row
  cases layer with
  | memory config =>
    obtain ⟨hplace, hstaffed⟩ := session.addMemory_staffed scheduler (layerName index) config.maxEntries
      (some ⟨config, sink⟩)
    obtain ⟨handles, hmemories⟩ := hstaffed.memories
    have hafter : (session.addPlanned scheduler sink (plannedLayer (.memory config, index))).world.memories =
        session.world.memories ++ [⟨layerName index, { limit := config.maxEntries.toNat }, false, handles⟩] :=
      hmemories
    refine ⟨⟨layerName index, .memory session.world.memories.length, false⟩, _,
      congrArg (· ++ _) hstaffed.cacheLayers, hafter, hstaffed.stores, ?_, ?_, List.pairwise_singleton ..⟩
    · rw [hafter]
      exact .cons (.memory List.getElem?_concat_length rfl rfl) .nil
    · intro handle hhandle number hnumber
      rw [List.mem_singleton.mp hhandle] at hnumber
      cases hnumber
      rw [hafter, List.length_append]
      exact ⟨Nat.le_refl _, Nat.lt_succ_self _⟩
  | networked config =>
    obtain ⟨kind, hkind⟩ := Option.isSome_iff_exists.mp (hrow config rfl)
    refine ⟨⟨layerName index, .network ⟨layerName index, interval? config.opTimeoutMs⟩ config.store kind,
      false⟩, [], ?_, (List.append_nil _).symm, rfl, .cons (.network hkind) .nil, ?_, List.pairwise_singleton ..⟩
    · simp only [addPlanned, plannedLayer, network, bounded_ofMillis, hkind, Option.getD_some]
    · intro handle hhandle number hnumber
      rw [List.mem_singleton.mp hhandle] at hnumber
      cases hnumber

theorem Furnished.append {session mid after : Session} {rows rows' : List (LayerConfig × Nat)}
    {handles handles' : List Handle} {added added' : List MemoryLayer}
    (h : Furnished session mid rows handles added) (h' : Furnished mid after rows' handles' added') :
    Furnished session after (rows ++ rows') (handles ++ handles') (added ++ added') where
  cacheLayers := by rw [h'.cacheLayers, h.cacheLayers, List.append_assoc]
  memories := by rw [h'.memories, h.memories, List.append_assoc]
  stores := h'.stores.trans h.stores
  inPlace := by
    have hfirst : List.Forall₂ (InPlace session.stores after.world.memories) rows handles :=
      h.inPlace.imp fun row handle hplace => h'.memories ▸ hplace.mono added'
    exact List.rel_append hfirst (h.stores ▸ h'.inPlace)
  own handle hhandle number hnumber := by
    have hmid : session.world.memories.length ≤ mid.world.memories.length := by
      rw [h.memories, List.length_append]
      omega
    have hafter : mid.world.memories.length ≤ after.world.memories.length := by
      rw [h'.memories, List.length_append]
      omega
    rcases List.mem_append.mp hhandle with hfirst | hsecond
    · have hown := h.own handle hfirst number hnumber
      omega
    · have hown := h'.own handle hsecond number hnumber
      omega
  apart := by
    refine List.pairwise_append.mpr ⟨h.apart, h'.apart, fun handle hhandle other hother number hnumber hsame => ?_⟩
    have hlow := (h.own handle hhandle number hnumber).2
    have hhigh := (h'.own other hother number hsame).1
    omega

theorem addAllPlanned_furnished (session : Session) (scheduler : Bool) (sink : Option Sink)
    {rows : List (LayerConfig × Nat)}
    (hrows : ∀ row ∈ rows, ∀ network, row.1 = .networked network →
      session.stores.contains network.store = true) :
    ∃ handles added, Furnished session
      ((rows.map plannedLayer).foldl (·.addPlanned scheduler sink) session) rows handles added := by
  induction rows generalizing session with
  | nil =>
    exact ⟨[], [], (List.append_nil _).symm, (List.append_nil _).symm, rfl, .nil, List.forall_mem_nil _, .nil⟩
  | cons row rows ih =>
    obtain ⟨hrow, hrest⟩ := List.forall_mem_cons.mp hrows
    obtain ⟨handle, added, hfirst⟩ := session.addPlanned_furnished scheduler sink hrow
    obtain ⟨handles, more, hmore⟩ := ih (session.addPlanned scheduler sink (plannedLayer row))
      (hfirst.stores ▸ hrest)
    exact ⟨[handle] ++ handles, added ++ more, hfirst.append hmore⟩

theorem addLayer_kept (session : Session) (scheduler : Bool) (spec : LayerSpec) :
    (session.addLayer scheduler spec).cacheLayers = session.cacheLayers ∧
    (session.addLayer scheduler spec).stores = session.stores := by
  cases spec with
  | memory name limit background single =>
    obtain ⟨-, hstaffed⟩ := session.addMemory_staffed scheduler name limit background
    exact ⟨hstaffed.cacheLayers, hstaffed.stores⟩
  | network name store timeout single => exact ⟨rfl, rfl⟩

theorem addLayers_kept (session : Session) (scheduler : Bool) (specs : List LayerSpec) :
    (specs.foldl (·.addLayer scheduler) session).cacheLayers = session.cacheLayers ∧
    (specs.foldl (·.addLayer scheduler) session).stores = session.stores := by
  induction specs generalizing session with
  | nil => exact ⟨rfl, rfl⟩
  | cons spec specs ih =>
    obtain ⟨hcacheLayers, hstores⟩ := session.addLayer_kept scheduler spec
    obtain ⟨hcacheLayers', hstores'⟩ := ih (session.addLayer scheduler spec)
    exact ⟨hcacheLayers'.trans hcacheLayers, hstores'.trans hstores⟩

end Session

-- ---------------------------------------------------------------------------
-- Building a cache
-- ---------------------------------------------------------------------------

namespace Setup

def registered (setup : Setup) (name : String) : Bool := decide (name ∈ setup.stores.map Prod.fst)

def bare (setup : Setup) : Session :=
  setup.layers.foldl (·.addLayer setup.scheduler)
    { machine := { world := setup.pools.foldl Session.connect { stores := Table.ofList setup.stores } }
      stores := (Table.ofList setup.stores).map Session.storeKind }

/-- Builds the cache that the configuration asks for; the error of a refusal is one of configuration. -/
def build? (setup : Setup) (sink : Option Sink) : Except CacheError Session :=
  (Session.start? { setup with source := .plan sink }).mapError fun fault => .config fault.message

variable (setup : Setup) (sink : Option Sink)

theorem start?_eq : Session.start? { setup with source := .plan sink } =
    (setup.config.plan setup.bare.stores.contains).map fun (cache, layers) =>
      let session := layers.foldl (·.addPlanned setup.scheduler sink) setup.bare
      { session.setWorld (session.world.log (setup.config.builtNotice cache)) with cache := some cache } := by
  show (setup.config.plan setup.bare.stores.contains >>= _) = _
  cases setup.config.plan setup.bare.stores.contains <;> rfl

theorem bare_cacheLayers : setup.bare.cacheLayers = [] := (Session.addLayers_kept ..).1

theorem bare_stores : setup.bare.stores = (Table.ofList setup.stores).map Session.storeKind :=
  (Session.addLayers_kept ..).2

theorem bare_contains : setup.bare.stores.contains = setup.registered := by
  funext name
  rw [bare_stores, Table.contains_map, Table.contains_ofList, registered]

theorem build?_disabled (h : setup.config.enabled = false) :
    ∃ session, setup.build? sink = .ok session ∧ session.cache = some .disabled ∧ session.cacheLayers = [] := by
  rw [build?, start?_eq, CacheConfig.plan_disabled h]
  exact ⟨_, rfl, rfl, setup.bare_cacheLayers⟩

theorem build?_eq_error (henabled : setup.config.enabled = true) {fault : Misconfiguration}
    (h : (setup.config.violations setup.registered).head? = some fault) :
    setup.build? sink = .error (.config fault.message) := by
  rw [build?, start?_eq, bare_contains, CacheConfig.plan_eq_error henabled h]
  rfl

structure Built (session : Session) (stack : Stack) : Prop where
  cache : session.cache = some (.stacked stack)
  settings : stack.settings = setup.config.settings
  layerNames : stack.layerNames = (List.range setup.config.layers.length).map layerName
  build : Stack.build setup.config (session.cacheLayers.map fun handle => (handle.name, !handle.single)) =
    .ok stack
  stores : session.stores = (Table.ofList setup.stores).map Session.storeKind
  inPlace : List.Forall₂ (InPlace session.stores session.world.memories) setup.config.layers.zipIdx
    session.cacheLayers
  apart : session.cacheLayers.Pairwise Handle.Apart

theorem build?_eq_ok (henabled : setup.config.enabled = true)
    (h : setup.config.violations setup.registered = []) :
    ∃ session stack, setup.build? sink = .ok session ∧ setup.Built session stack := by
  obtain ⟨stack, hplan, hbuild, hsettings, hnames⟩ := CacheConfig.plan_eq_ok henabled h
  have hsatisfiable := CacheConfig.violations_eq_nil_iff.mp h
  have hrows : ∀ row ∈ setup.config.layers.zipIdx, ∀ network, row.1 = .networked network →
      setup.bare.stores.contains network.store = true := by
    rintro ⟨layer, index⟩ hrow network rfl
    rw [bare_contains]
    exact hsatisfiable.provisioned (List.mem_of_getElem? (List.mem_zipIdx_iff_getElem?.mp hrow))
  obtain ⟨handles, added, hfurnished⟩ := setup.bare.addAllPlanned_furnished setup.scheduler sink hrows
  have hlayers := hfurnished.cacheLayers
  rw [bare_cacheLayers, List.nil_append] at hlayers
  have hplaced := hfurnished.inPlace
  rw [build?, start?_eq, bare_contains, hplan]
  refine ⟨_, stack, rfl, rfl, hsettings, hnames, ?_, hfurnished.stores.trans setup.bare_stores, ?_, ?_⟩
  · show Stack.build setup.config (Session.cacheLayers (List.foldl _ _ _) |>.map _) = _
    rw [hlayers, inPlace_names hplaced, hbuild]
  · show List.Forall₂ (InPlace (Session.stores (List.foldl _ _ _)) _) _ (Session.cacheLayers (List.foldl _ _ _))
    rw [hlayers, hfurnished.stores]
    exact hplaced
  · show List.Pairwise _ (Session.cacheLayers (List.foldl _ _ _))
    rw [hlayers]
    exact hfurnished.apart

end Setup

/-- A disabled configuration builds the disabled cache, whatever else it says. Any other builds a stack of
layers exactly if it is satisfiable with the stores that are registered: then the layers L1, L2, … stand
in the configured order, each of the kind, with the capacity or with the store and the bound that its
configuration gives, in a place of its own. Otherwise the error is one of configuration, with the text of
the first violation: of the jitter, of the default time to live, of the list of layers, of the first
networked layer whose store has a blank name, and of the first one whose store is not registered. The
stack itself refuses no layers that have been planned. -/
theorem builds_iff_satisfiable (setup : Setup) (sink : Option Sink) :
    (setup.config.enabled = false → ∃ session, setup.build? sink = .ok session ∧
      session.cache = some .disabled ∧ session.cacheLayers = []) ∧
    (setup.config.enabled = true →
      ((∃ session stack, setup.build? sink = .ok session ∧ session.cache = some (.stacked stack)) ↔
        setup.config.Satisfiable setup.registered) ∧
      (∀ session, setup.build? sink = .ok session → ∃ stack, setup.Built session stack) ∧
      (∀ e, setup.build? sink = .error e ↔ ∃ fault,
        (setup.config.violations setup.registered).head? = some fault ∧ e = .config fault.message) ∧
      ∀ planned, setup.config.fault? = none →
        planLayers setup.registered 0 setup.config.layers = .ok planned →
        ∃ stack, Stack.build setup.config (planned.map fun layer => (layer.name, true)) = .ok stack) := by
  refine ⟨setup.build?_disabled sink, fun henabled => ?_⟩
  rw [← CacheConfig.violations_eq_nil_iff]
  cases hviolations : setup.config.violations setup.registered with
  | nil =>
    obtain ⟨session, stack, hbuild, hbuilt⟩ := setup.build?_eq_ok sink henabled hviolations
    refine ⟨iff_of_true ⟨session, stack, hbuild, hbuilt.cache⟩ rfl, fun other hother => ?_, fun e => ?_, ?_⟩
    · rw [hbuild] at hother
      cases hother
      exact ⟨stack, hbuilt⟩
    · simp [hbuild]
    · exact fun planned hfault => CacheConfig.build_planned henabled hfault
  | cons fault rest =>
    have hbuild := setup.build?_eq_error sink henabled (by rw [hviolations]; rfl)
    refine ⟨iff_of_false ?_ (List.cons_ne_nil _ _), fun session hsession => ?_, fun e => ?_, ?_⟩
    · rintro ⟨session, stack, hsession, -⟩
      rw [hbuild] at hsession
      cases hsession
    · rw [hbuild] at hsession
      cases hsession
    · simp [hbuild, eq_comm]
    · exact fun planned hfault => CacheConfig.build_planned henabled hfault

def pairSetup : Setup where
  stores := [("redis", .redis {} [])]
  config := { jitter := ⟨0⟩, layers := [.memory { maxEntries := 7 }, .networked { opTimeoutMs := 5 }] }

def flawedSetup : Setup where
  config := { jitter := ⟨0⟩, layers := [.networked { store := "sessions" }, .networked { store := " " }] }

theorem builds_iff_satisfiable_pair :
    (pairSetup.config.enabled = true ∧ pairSetup.config.Satisfiable pairSetup.registered ∧
      ∃ session stack, pairSetup.build? none = .ok session ∧ session.cache = some (.stacked stack) ∧
        stack.layerNames = ["L1", "L2"]) ∧
    flawedSetup.config.enabled = true ∧
    flawedSetup.build? none = .error (.config "layers[1].store must not be empty") := by
  obtain ⟨-, hpair⟩ := builds_iff_satisfiable pairSetup none
  obtain ⟨-, hflawed⟩ := builds_iff_satisfiable flawedSetup none
  obtain ⟨hiff, hbuilt, -⟩ := hpair rfl
  obtain ⟨-, -, herror, -⟩ := hflawed rfl
  have hsatisfiable : pairSetup.config.Satisfiable pairSetup.registered :=
    CacheConfig.violations_eq_nil_iff.mp (by decide +kernel)
  obtain ⟨session, stack, hsession, hcache⟩ := hiff.mpr hsatisfiable
  obtain ⟨other, hother⟩ := hbuilt session hsession
  have hsame : some (Cache.stacked stack) = some (.stacked other) := hcache.symm.trans hother.cache
  cases hsame
  refine ⟨⟨rfl, hsatisfiable, session, stack, hsession, hcache, hother.layerNames⟩, rfl, ?_⟩
  exact (herror _).mpr ⟨.blankStore 1, by decide +kernel, rfl⟩

end StackedCache.Simulation

import StackedCache.Simulation.Session

/-!
# Setting up a session

Connections are opened first; layers are built in order, then the cache. A memory layer with an interval
starts its workers as it is built, if there is a scheduler to run them.
-/

namespace StackedCache.Simulation

structure Background where
  config : MemoryConfig
  sink : Option Sink

inductive LayerSpec where
  | memory (name : String) (limit : UInt64) (background : Option Background) (single : Bool)
  | network (name store : String) (timeout : Duration) (single : Bool)

inductive CacheSource where
  /-- The layers of the session. -/
  | layers
  /-- The layers that its configuration asks for. -/
  | plan (sink : Option Sink)
  | disabled
  | none

structure Setup where
  stores : List (String × SimulatedStore) := []
  /-- The sizes of the pools of connections, in the order in which they are opened. -/
  pools : List Nat := []
  layers : List LayerSpec := []
  config : CacheConfig := {}
  source : CacheSource := .layers
  /-- Whether there is a scheduler when the layers are built. -/
  scheduler : Bool := true

def Background.duties (background : Background) : List (Duty × Duration) :=
  (match background.config.cleanInterval with
    | some period => [(.sweep, period)]
    | none => []) ++
  (match background.config.statsInterval, background.sink with
    | some period, some sink => [(.report sink, period)]
    | _, _ => [])

namespace Session

def storeKind : SimulatedStore → StoreKind
  | .scripted store => .scripted store.batched
  | .redis .. => .redis

def addWorker (session : Session) (layer : Nat) (duty : Duty) (period : Duration) : Session :=
  let world := session.world
  let number := world.workers.length
  let worker : Worker := { layer, duty, period, due := world.now + period.nanos }
  let memory := world.memory layer
  let world := { world with workers := world.workers ++ [worker] }.setMemory layer
    { memory with handles := memory.handles ++ [number] }
  let timer : Timer := { millis := worker.due.ceilMillis, target := .worker number }
  let machine : Machine Answer := { session.machine with world }
  { session with machine := machine.addTimer timer }

def addMemory (session : Session) (scheduler : Bool) (name : String) (limit : UInt64)
    (background : Option Background) : Place × Session :=
  let number := session.world.memories.length
  let session := session.setWorld { session.world with
    memories := session.world.memories ++ [{ name, memory := { limit := limit.toNat } }] }
  let duties := (background.map Background.duties).getD []
  (.memory number,
    if duties.isEmpty then session
    else if !scheduler then session.setWorld (session.world.log (.tasksNotStarted name))
    else duties.foldl (fun session (duty, period) => session.addWorker number duty period) session)

/-- The place of a networked layer. A store that does not exist answers like an empty one. -/
def network (session : Session) (layer : Network) (store : String) : Place :=
  .network layer store ((session.stores.get? store).getD (.scripted false))

def addLayer (session : Session) (scheduler : Bool) : LayerSpec → Session
  | .memory name limit background single =>
    let (place, session) := session.addMemory scheduler name limit background
    { session with layers := session.layers ++ [⟨name, place, single⟩] }
  | .network name store timeout single =>
    let place := session.network (.bounded name timeout) store
    { session with layers := session.layers ++ [⟨name, place, single⟩] }

def addPlanned (session : Session) (scheduler : Bool) (sink : Option Sink) :
    PlannedLayer → Session
  | .memory name config =>
    let (place, session) :=
      session.addMemory scheduler name config.maxEntries (some ⟨config, sink⟩)
    { session with cacheLayers := session.cacheLayers ++ [⟨name, place, false⟩] }
  | .network layer store =>
    { session with
      cacheLayers := session.cacheLayers ++ [⟨layer.name, session.network layer store, false⟩] }

def connect (world : World) (poolSize : Nat) : World :=
  (world.log (.connecting poolSize)).log .connected

def start? (setup : Setup) : Except Misconfiguration Session := do
  let world : World := setup.pools.foldl connect { stores := Table.ofList setup.stores }
  let empty : Session :=
    { machine := { world }
      stores := (Table.ofList setup.stores).map storeKind }
  let session := setup.layers.foldl (·.addLayer setup.scheduler) empty
  match setup.source with
  | .none => pure session
  | .disabled => pure { session with cache := some .disabled }
  | .layers =>
    let stack ← Stack.build setup.config
      (session.layers.map fun handle => (handle.name, !handle.single))
    pure { session with cache := some (.stacked stack), cacheLayers := session.layers }
  | .plan sink =>
    let (cache, layers) ← setup.config.plan session.stores.contains
    let session := layers.foldl (·.addPlanned setup.scheduler sink) session
    let session := session.setWorld (session.world.log (setup.config.builtNotice cache))
    pure { session with cache := some cache }

end Session

end StackedCache.Simulation

import StackedCache.Cache.Plan
import StackedCache.Simulation.Machine

/-!
# Sessions

A session is a cache with its layers and stores on a machine, driven by
commands: calls that run at once or as tasks, movements of the clock, and
questions about what happened.
-/

namespace StackedCache.Simulation

inductive Answer where
  | done
  | lookup (found : Lookup)
  | value (bytes : Bytes)
  | values (values : Table Bytes)
  | batch (found : BatchGet)
  | failed (error : CacheError)
  | entry (found : Option Entry)
  | batchHits (found : BatchHits)
  | stored (found : Option Bytes)
  | ttl (remaining : Option Duration)
  | found (values : Table Bytes)
  | storeFailed (failure : Failure)
  | cancelled
  | pending
  | number (n : Nat)
  | flag (b : Bool)
  | nothing
  | text (s : String)
  | names (names : List String)
  | payload (bytes : Option Bytes)
  | memoryStats (memory : Memory)
  | ttlCheck (count : Nat) (ge le distinct : Bool)
  | items (items : List (String × Bytes × Option Duration))
  | samples (samples : List Sample)
  | meters (meters : Table Nat)
  | notices (notices : List Notice)

inductive Work where
  | get (key : String)
  | getValue (key : String)
  | set (key : String) (value : Bytes) (ttl : Duration)
  | delete (key : String)
  | mset (items : Table Bytes) (ttl : Duration)
  | close
  | remember (key : String) (loader : ScriptedLoader) (options : RememberOptions)
  | mget (keys : List String)
  | mremember (keys : List String) (loader : ScriptedLoader) (options : RememberOptions)
  /-- A load on the guard that belongs to no cache. -/
  | guardRun (key : String) (loader : ScriptedLoader)
  | layer (index : Nat) (op : LayerOp)
  | layerClose (index : Nat)
  | store (name : String) (op : StoreOp)

inductive Command where
  | work (work : Work) (within : Nat)
  | spawn (id : String) (work : Work)
  | isDone (id : String)
  | join (id : String) (within : Nat)
  | abort (id : String)
  | advance (ms : Nat)
  | jump (d : Duration)
  | inFlight
  | guardInFlight
  | layerNames
  | isEnabled
  | cacheText
  | dropCache
  | dropLayers
  | layerName (index : Nat)
  | memoryStats (index : Nat)
  | memoryLength (index : Nat)
  | memoryIsEmpty (index : Nat)
  | memoryClear (index : Nat)
  | memoryCleanup (index : Nat)
  | memoryTasks (index : Nat)
  | putRaw (store key : String) (value : Bytes) (ttl : Duration)
  | raw (store key : String)
  | behave (store : String) (rules : List Rule)
  | ttlCheck (store : String) (key : Option String) (ge le : Duration)
  | inject (store : String) (reply : Bytes)
  | dump (store : String)
  | samples
  | meters
  | notices (least : Severity)

/-- What a task keeps alive: all that the session held when the task began. -/
structure Holding where
  layers : Bool
  cache : Bool

structure Session where
  machine : Machine Answer := {}
  layers : List Handle := []
  /-- Whether the session itself still holds the layers. -/
  holdsLayers : Bool := true
  cache : Option Cache := none
  /-- The layers that the cache was built from. -/
  cacheLayers : List Handle := []
  holdsCache : Bool := true
  stores : Table StoreKind := {}
  /-- What each task holds, by the task's number. -/
  holdings : List Holding := []
  ids : Table Nat := {}

def loneGuard : Nat := 0

def cacheGuard : Nat := 1

namespace Answer

def ofUnit : Except CacheError Unit → Answer
  | .ok () => .done
  | .error e => .failed e

def ofOutcome : Outcome → Answer
  | .ok bytes => .value bytes
  | .error e => .failed e

def ofLayer : (op : LayerOp) → op.Reply → Answer
  | .get _, .ok result => .entry result
  | .mget _, .ok result => .batchHits result
  | .set .., .ok _ | .delete _, .ok _ | .mset .., .ok _ => .done
  | _, .error e => .failed e

def ofStore : (op : StoreOp) → op.Reply → Answer
  | .get _, .ok result => .stored result
  | .ttl _, .ok result => .ttl result
  | .mget _, .ok result => .found result
  | .set .., .ok _ | .delete _, .ok _ | .mset .., .ok _ => .done
  | _, .error failure => .storeFailed failure

end Answer

namespace Session

def loadValue (loader : ScriptedLoader) : CacheProc ScriptedLoader Outcome := do
  match ← CacheProc.load loader with
  | .ok loaded => pure (.ok loaded.value)
  | .error e => pure (.error e)

def cacheWork (cache : Cache) : Work → CacheProc ScriptedLoader Answer
  | .get key => do
    match ← cache.get key with
    | .ok found => pure (.lookup found)
    | .error e => pure (.failed e)
  | .getValue key => Answer.ofOutcome <$> cache.getValue key
  | .set key value ttl => Answer.ofUnit <$> cache.set key value ttl
  | .delete key => Answer.ofUnit <$> cache.delete key
  | .mset items ttl => Answer.ofUnit <$> cache.mset items ttl
  | .close => do
    cache.close
    pure .done
  | .remember key loader options => Answer.ofOutcome <$> cache.remember key loader options
  | .mget keys => do
    match ← cache.mget keys with
    | .ok found => pure (.batch found)
    | .error e => pure (.failed e)
  | .mremember keys loader options => do
    match ← cache.mremember keys loader options with
    | .ok values => pure (.values values)
    | .error e => pure (.failed e)
  | _ => pure .nothing

def program (session : Session) : Work → KernelProc Answer
  | .guardRun key loader =>
    (Answer.ofOutcome <$> CacheProc.share key (loadValue loader)).translate
      (KernelProc.cacheRequest [] loneGuard)
  | .layer index op =>
    match session.layers[index]? with
    | some handle => Answer.ofLayer op <$> handle.perform op
    | none => pure .nothing
  | .layerClose index =>
    match session.layers[index]? with
    | some handle => do
      handle.close
      pure .done
    | none => pure .nothing
  | .store name op =>
    match session.stores.get? name with
    | some kind => Answer.ofStore op <$> kind.store name op
    | none => pure .nothing
  | work =>
    match session.cache with
    | some cache =>
      (cacheWork cache work).translate (KernelProc.cacheRequest session.cacheLayers cacheGuard)
    | none => pure .nothing

def world (session : Session) : World := session.machine.world

def setWorld (session : Session) (world : World) : Session :=
  { session with machine := { session.machine with world } }

def heldByTask (session : Session) (what : Holding → Bool) : Bool :=
  (session.holdings.zip session.machine.tasks).any fun (holding, task) =>
    what holding && match task.progress with
      | .waiting .. => true
      | _ => false

def isMemory (number : Nat) (handle : Handle) : Bool :=
  match handle.place with
  | .memory n => n == number
  | .network .. => false

def isHeld (session : Session) (number : Nat) : Bool :=
  (session.cacheLayers.any (isMemory number) &&
      (session.holdsCache || session.heldByTask Holding.cache)) ||
    (session.layers.any (isMemory number) &&
      (session.holdsLayers || session.heldByTask Holding.layers))

/-- A memory layer that nobody holds stops its workers. -/
def release (session : Session) : Session :=
  let dropped := session.world.memories.zipIdx.filter fun (layer, number) =>
    !layer.stopped && !session.isHeld number
  if dropped.isEmpty then session
  else
    let world := dropped.foldl (fun (world : World) (_, number) => world.stop number) session.world
    { session with machine := ({ session.machine with world }.deliver).settle }

def jump (session : Session) (d : Duration) : Session :=
  { session with machine := session.machine.jump d }.release

def advance (session : Session) : Nat → Session
  | 0 => session
  | n + 1 => (session.jump Machine.millisecond).advance n

def await (session : Session) (number : Nat) : Nat → Session
  | 0 => session
  | n + 1 =>
    match session.machine.result? number with
    | some _ => session
    | none => (session.jump Machine.millisecond).await number n

def start (session : Session) (work : Work) (inForeground : Bool) : Nat × Session :=
  let (number, machine) := session.machine.spawn (session.program work) inForeground
  let holding : Holding := ⟨session.holdsLayers, session.holdsCache⟩
  (number, { session with machine, holdings := session.holdings ++ [holding] }.release)

def cancel (session : Session) (number : Nat) : Session :=
  { session with machine := session.machine.cancel number }.release

/-- Runs a call as far as it gets within a time; what has not ended by then is cancelled. -/
def run (session : Session) (work : Work) (within : Nat) : Answer × Session :=
  let (number, session) := session.start work true
  let session := session.await number within
  match session.machine.result? number with
  | some answer => (answer, session)
  | none => (.cancelled, session.cancel number)

def memory? (session : Session) (index : Nat) : Option (Nat × MemoryLayer) :=
  match session.layers[index]? with
  | some ⟨_, .memory number, _⟩ => some (number, session.world.memory number)
  | _ => none

def askMemory (session : Session) (index : Nat) (answer : MemoryLayer → Answer) : Answer × Session :=
  match session.memory? index with
  | some (_, layer) => (answer layer, session)
  | none => (.nothing, session)

def changeMemory (session : Session) (index : Nat) (change : Memory → Answer × Memory) :
    Answer × Session :=
  match session.memory? index with
  | some (number, layer) =>
    let (answer, memory) := change layer.memory
    (answer, session.setWorld (session.world.setMemory number { layer with memory }))
  | none => (.nothing, session)

def changeStore (session : Session) (name : String) (change : SimulatedStore → SimulatedStore) :
    Answer × Session :=
  match session.world.stores.get? name with
  | some store =>
    (.done, session.setWorld
      { session.world with stores := session.world.stores.insert name (change store) })
  | none => (.nothing, session)

def withStore (session : Session) (name : String) (answer : SimulatedStore → Answer) :
    Answer × Session :=
  match session.world.stores.get? name with
  | some store => (answer store, session)
  | none => (.nothing, session)

def SimulatedStore.items : SimulatedStore → Table Item
  | .scripted store => store.items
  | .redis server _ => server.items

def dump (store : SimulatedStore) (now : Instant) : List (String × Bytes × Option Duration) :=
  (((SimulatedStore.items store).live now).rows.map fun (key, item) =>
    (key, item.payload, item.remaining now)).mergeSort fun a b => a.1 ≤ b.1

def ttlCheck (writes : List (String × Duration)) (key : Option String) (ge le : Duration) : Answer :=
  let ttls := (writes.filter fun (k, _) => key.all (· == k)).map fun (_, ttl) => ttl.nanos
  .ttlCheck ttls.length (ttls.all (ge.nanos ≤ ·)) (ttls.all (· ≤ le.nanos))
    (ttls.any fun ttl => ttls.any (· != ttl))

def withTask (session : Session) (id : String) (act : Nat → Answer × Session) : Answer × Session :=
  match session.ids.get? id with
  | some number => act number
  | none => (.nothing, session)

def execute (session : Session) : Command → Answer × Session
  | .work work within => session.run work within
  | .spawn id work =>
    let (number, session) := session.start work false
    (.done, { session with ids := session.ids.insert id number })
  | .isDone id => session.withTask id fun number =>
    (.flag (session.machine.result? number).isSome, session)
  | .join id within => session.withTask id fun number =>
    let session := session.await number within
    match session.machine.result? number with
    | some answer => (answer, session)
    | none => (.pending, session)
  | .abort id => session.withTask id fun number =>
    match session.machine.result? number with
    | some answer => (answer, session)
    | none => (.cancelled, session.cancel number)
  | .advance ms => (.done, session.advance ms)
  | .jump d => (.done, session.jump d)
  | .inFlight =>
    (match session.cache with
      | some (.stacked _) => .number (session.world.guard cacheGuard).inFlight
      | _ => .nothing, session)
  | .guardInFlight => (.number (session.world.guard loneGuard).inFlight, session)
  | .layerNames =>
    (match session.cache with
      | some (.stacked stack) => .names stack.layerNames
      | _ => .nothing, session)
  | .isEnabled =>
    (match session.cache with
      | some cache => .flag cache.isEnabled
      | none => .nothing, session)
  | .cacheText =>
    (match session.cache with
      | some cache => .text cache.text
      | none => .nothing, session)
  | .dropCache => (.done, { session with holdsCache := false }.release)
  | .dropLayers => (.done, { session with holdsLayers := false }.release)
  | .layerName index =>
    (match session.layers[index]? with
      | some handle => .text handle.name
      | none => .nothing, session)
  | .memoryStats index => session.askMemory index fun layer => .memoryStats layer.memory
  | .memoryLength index => session.askMemory index fun layer => .number layer.memory.entries.size
  | .memoryIsEmpty index => session.askMemory index fun layer => .flag layer.memory.entries.isEmpty
  | .memoryTasks index => session.askMemory index fun layer => .number layer.handles.length
  | .memoryClear index => session.changeMemory index fun memory => (.done, memory.clear)
  | .memoryCleanup index => session.changeMemory index fun memory =>
    let (removed, memory) := memory.sweep session.world.now
    (.number removed, memory)
  | .putRaw store key value ttl => session.changeStore store fun
    | .scripted s => .scripted { s with
        items := s.items.insert key (.lasting value ttl session.world.now) }
    | other => other
  | .raw store key => session.withStore store fun store =>
    .payload (((SimulatedStore.items store).get? key).map Item.payload)
  | .behave store rules => session.changeStore store fun
    | .scripted s => .scripted { s with rules }
    | other => other
  | .ttlCheck store key ge le => session.withStore store fun
    | .scripted s => ttlCheck s.writes key ge le
    | _ => .nothing
  | .inject store reply => session.changeStore store fun
    | .redis server injected =>
      .redis server (injected ++ [Redis.Wire.replies reply])
    | other => other
  | .dump store => session.withStore store fun store => .items (dump store session.world.now)
  | .samples =>
    (.samples session.world.samples.reverse, session.setWorld { session.world with samples := [] })
  | .meters => (.meters session.world.meters, session)
  | .notices least =>
    (.notices (session.world.notices.reverse.filter (least.rank ≤ ·.severity.rank)),
      session.setWorld { session.world with notices := [] })

def takeCalls (session : Session) : List Call × Session :=
  (session.world.calls.reverse, session.setWorld { session.world with calls := [] })

def millis (session : Session) : Nat := session.world.millis

end Session

end StackedCache.Simulation

import StackedCache.Memory
import StackedCache.Redis.Server
import StackedCache.Redis.Wire
import StackedCache.Simulation.Kernel

/-!
# The simulated world

Everything that programs act on: the clock, memory layers with their
background workers, stores, guards, and the records of what happened.
-/

namespace StackedCache.Simulation

inductive Sink where
  | keep
  | notice
  /-- A sink that breaks when it is used; the worker dies of it. -/
  | broken
  deriving DecidableEq

inductive Duty where
  | sweep
  | report (sink : Sink)
  deriving DecidableEq

inductive Life where
  | running
  | finished
  | died
  deriving DecidableEq

/-- A background task of a memory layer: it ticks once per period until it is told to stop. -/
structure Worker where
  layer : Nat
  duty : Duty
  period : Duration
  /-- When the next tick is due. -/
  due : Instant
  life : Life := .running

structure MemoryLayer where
  name : String
  memory : Memory
  /-- Whether the workers have been told to stop. -/
  stopped : Bool := false
  /-- The workers whose end nobody waits for yet. -/
  handles : List Nat := []

instance : Inhabited MemoryLayer := ⟨{ name := "", memory := { limit := 0 } }⟩

inductive SimulatedStore where
  | scripted (store : ScriptedStore)
  /-- A server, and what to answer instead to each of the next commands. -/
  | redis (server : Redis.Server) (injected : List (List Redis.Reply))

inductive Signal where
  | ticket (guard ticket : Nat)
  /-- A worker has been told to stop. -/
  | worker (number : Nat)
  | ended (worker : Nat)

structure Sample where
  content : HitRate
  /-- The time of the report in milliseconds since the start. -/
  millis : Nat

/-- A stream of numbers that spreads evenly over an interval, in place of a random generator:
multiples of the golden ratio modulo one, stretched to the interval. -/
structure Draws where
  count : Nat := 0

namespace Draws

def next (draws : Draws) (spread : Rat) : Rat × Draws :=
  let part : Nat := (draws.count + 1) * 0x9e3779b97f4a7c15 % 2 ^ 64
  (Binary64.round (spread * (mkRat part (2 ^ 63) - 1)), ⟨draws.count + 1⟩)

def jittered (draws : Draws) (fraction : Binary64) (ttl : Duration) : Nat → List Duration
  | 0 => []
  | n + 1 =>
    let (delta, draws) := match Jitter.spread? fraction with
      | none => (0, draws)
      | some spread => draws.next spread
    Jitter.apply Binary64.round fraction ttl delta :: draws.jittered fraction ttl n

end Draws

structure World where
  /-- Nanoseconds since the start. -/
  time : Nat := 0
  memories : List MemoryLayer := []
  workers : List Worker := []
  stores : Table SimulatedStore := {}
  guards : List Flights := [{}, {}]
  draws : Draws := {}
  -- the newest entry of each record comes first
  calls : List Call := []
  notices : List Notice := []
  samples : List Sample := []
  meters : Table Nat := {}
  signals : List Signal := []

namespace World

def now (world : World) : Instant := 10 ^ 12 + world.time

def millis (world : World) : Nat := world.time / 10 ^ 6

def memory (world : World) (number : Nat) : MemoryLayer := world.memories[number]?.getD default

def setMemory (world : World) (number : Nat) (layer : MemoryLayer) : World :=
  { world with memories := world.memories.set number layer }

def guard (world : World) (number : Nat) : Flights := world.guards[number]?.getD {}

def setGuard (world : World) (number : Nat) (guard : Flights) : World :=
  { world with guards := world.guards.set number guard }

def log (world : World) (notice : Notice) : World :=
  { world with notices := notice :: world.notices }

def signal (world : World) (signals : List Signal) : World :=
  { world with signals := world.signals ++ signals }

def nextDraw (world : World) (spread : Rat) : Rat × World :=
  let (delta, draws) := world.draws.next spread
  (delta, { world with draws })

def memoryCall (world : World) (number : Nat) (op : LayerOp) : op.Answer × World :=
  let layer := world.memory number
  let (answer, removed, memory) := layer.memory.perform world.now op
  let world := world.setMemory number { layer with memory }
  (answer, match removed with
    | some removed => world.log (.sweptOverCapacity layer.name removed memory.limit)
    | none => world)

def stop (world : World) (number : Nat) : World :=
  let layer := world.memory number
  let running := world.workers.zipIdx.filter fun (worker, _) =>
    worker.layer == number && worker.life == .running
  (world.setMemory number { layer with stopped := true }).signal
    (running.map fun (_, worker) => .worker worker)

def takeHandles (world : World) (number : Nat) : List Nat × World :=
  let layer := world.memory number
  (layer.handles, world.setMemory number { layer with handles := [] })

def storeAnswer (world : World) (name : String) (op : StoreOp) : op.Answer × World :=
  match world.stores.get? name with
  | some (.scripted store) =>
    let (answer, store) := store.perform world.now op
    (answer, { world with stores := world.stores.insert name (.scripted store) })
  | _ => (((⟨false, [], {}, []⟩ : ScriptedStore).perform world.now op).1, world)

def rulesFor (world : World) (name : String) (op : StoreOp) : List Rule :=
  match world.stores.get? name with
  | some (.scripted store) => store.rules.filter (·.applies op)
  | _ => []

def serve (world : World) (name : String) (command : Redis.Command) :
    List Redis.Reply × World :=
  match world.stores.get? name with
  | some (.redis server (replies :: injected)) =>
    (replies, { world with stores := world.stores.insert name (.redis server injected) })
  | some (.redis server []) =>
    let (reply, server) := server.execute world.now command
    ([reply], { world with stores := world.stores.insert name (.redis server []) })
  | _ => ([.nil], world)

def abandon (world : World) (guard : Nat) (seat : Seat) : World :=
  let (next, flights) := (world.guard guard).giveUp seat
  (world.setGuard guard (flights.leave seat)).signal (next.map (.ticket guard))

def perform (world : World) : (r : KernelRequest) → r.Reply × World
  | .now => (world.now, world)
  | .draw spread => world.nextDraw spread
  | .memory number op => world.memoryCall number op
  | .stop number => (world.stop number).takeHandles number
  | .ended number worker =>
    ((), match world.workers[worker]? with
      | some ⟨_, _, _, _, .died⟩ => world.log (.taskFailed (world.memory number).name)
      | _ => world)
  | .rules store op => (world.rulesFor store op, world)
  | .answer store op => world.storeAnswer store op
  | .serve store command => world.serve store command
  | .join guard key =>
    let (seat, flights) := (world.guard guard).join key
    (seat, world.setGuard guard flights)
  | .turn guard seat =>
    let (turn, flights) := (world.guard guard).ask seat
    (turn, world.setGuard guard flights)
  | .land guard seat outcome =>
    let (next, flights) := (world.guard guard).land seat outcome
    ((), (world.setGuard guard flights).signal (next.map (.ticket guard)))
  | .leave guard seat => ((), world.setGuard guard ((world.guard guard).leave seat))
  | .call call => ((), { world with calls := call :: world.calls })
  | .notice notice => ((), world.log notice)
  | .count count => ((), { world with meters := count.record world.meters })
  | .wait .. => (true, world)

def ready (world : World) : Wait → Bool
  | .until deadline => Instant.reached world.now deadline
  | .never => false
  | .turn guard seat => !(world.guard guard).mustWait seat
  | .worker number =>
    match world.workers[number]? with
    | some worker => worker.life != .running
    | none => true

def tick (world : World) (worker : Worker) : Life × World :=
  let layer := world.memory worker.layer
  match worker.duty with
  | .sweep =>
    let (removed, memory) := layer.memory.sweep world.now
    let world := world.setMemory worker.layer { layer with memory }
    let world := if removed = 0 then world else world.log (.swept layer.name removed)
    let held : Count := .entries layer.name memory.entries.size
    (.running, { world with meters := held.record world.meters })
  | .report sink =>
    let sample : HitRate := ⟨layer.name, layer.memory.gets, layer.memory.hits⟩
    match sink with
    | .keep => (.running, { world with samples := ⟨sample, world.millis⟩ :: world.samples })
    | .notice => (.running, world.log (.hitRate sample))
    | .broken => (.died, world)

def lateness : Nat := 5 * 10 ^ 6

def nextDue (now due : Instant) (period : Duration) : Instant :=
  (if due + lateness < now then now else due) + period.nanos

/-- A worker stops if it has been told to, and otherwise ticks as often as ticks are due. -/
def runWorker (world : World) (number : Nat) : Nat → World
  | 0 => world
  | fuel + 1 =>
    match world.workers[number]? with
    | none => world
    | some worker =>
      if worker.life != .running then world
      else if (world.memory worker.layer).stopped then
        { world with
          workers := world.workers.set number { worker with life := .finished } }.signal
          [.ended number]
      else if Instant.reached world.now worker.due then
        let (life, world) := world.tick worker
        let worker := { worker with life, due := nextDue world.now worker.due worker.period }
        let world := { world with workers := world.workers.set number worker }
        if life = .running then world.runWorker number fuel else world.signal [.ended number]
      else world

/-- A tick that is due at once is at most as late as the one before, less a period of at
least a millisecond, so no worker ticks oftener than this at one instant. -/
def tickBound : Nat := 8

end World

end StackedCache.Simulation

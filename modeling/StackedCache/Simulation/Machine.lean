import StackedCache.Simulation.World

/-!
# Tasks and time

A machine runs tasks over a world, one at a time and each until it waits. Tasks
that can go on form a queue, first come first served; timers put tasks and
workers into it as time passes. One task may be in the foreground: it goes first
in each round, and a round takes all from the queue that it can. Time moves by
itself never.
-/

namespace StackedCache.Simulation

variable {α : Type}

inductive Progress (α : Type) where
  | waiting (what : Wait) (limit : Option Instant) (next : Bool → KernelProc α)
  | finished (result : α)
  | cancelled

/-- Runs a program to its end or to the first wait for something that is not there. The
seat that the program holds on a flight is kept, so that it can be given up. -/
def runProc (seat : Option (Nat × Seat)) (world : World) :
    KernelProc α → Progress α × Option (Nat × Seat) × World
  | Proc.done a => (.finished a, seat, world)
  | Proc.ask (.wait what limit) next =>
    if world.ready what then runProc seat world (next true)
    else
      match limit with
      | none => (.waiting what none next, seat, world)
      | some t =>
        if Instant.reached world.now t then runProc seat world (next false)
        else (.waiting what (some t) next, seat, world)
  | Proc.ask (.join guard key) next =>
    let (taken, world) := world.perform (.join guard key)
    runProc (some (guard, taken)) world (next taken)
  | Proc.ask (.leave guard left) next =>
    runProc none (world.perform (.leave guard left)).2 (next ())
  | Proc.ask r next =>
    let (reply, world) := world.perform r
    runProc seat world (next reply)

structure Task (α : Type) where
  progress : Progress α
  seat : Option (Nat × Seat) := none

inductive Target where
  | task (number : Nat)
  | worker (number : Nat)
  deriving DecidableEq

/-- Fires at a whole millisecond; of two for the same one the older fires first. -/
structure Timer where
  millis : Nat
  target : Target
  /-- Whether it bounds a wait. Such a timer stays while one wait follows another. -/
  isLimit : Bool := false

structure Machine (α : Type) where
  world : World := {}
  tasks : List (Task α) := []
  /-- The oldest timer comes first. -/
  timers : List Timer := []
  queue : List Target := []
  /-- The task in the foreground. It never stands in the queue. -/
  foreground : Option Nat := none
  foregroundWoken : Bool := false

namespace Machine

def wake (machine : Machine α) (target : Target) : Machine α :=
  if machine.foreground.map .task = some target then { machine with foregroundWoken := true }
  else if target ∈ machine.queue then machine
  else { machine with queue := machine.queue ++ [target] }

def waiter? (machine : Machine α) (waitsFor : Wait → Bool) : Option Nat :=
  machine.tasks.findIdx? fun task =>
    match task.progress with
    | .waiting what .. => waitsFor what
    | _ => false

def signalTarget? (machine : Machine α) : Signal → Option Target
  | .ticket guard ticket =>
    (machine.waiter? fun
      | .turn g seat => g == guard && seat.ticket == ticket
      | _ => false).map .task
  | .worker number => some (.worker number)
  | .ended number =>
    (machine.waiter? fun
      | .worker n => n == number
      | _ => false).map .task

def deliver (machine : Machine α) : Machine α :=
  let signals := machine.world.signals
  let machine := { machine with world := { machine.world with signals := [] } }
  signals.foldl (fun machine signal =>
    match machine.signalTarget? signal with
    | some target => machine.wake target
    | none => machine) machine

def addTimer (machine : Machine α) (timer : Timer) : Machine α :=
  { machine with timers := machine.timers ++ [timer] }

/-- Keeps no timer of a target but the one for a limit that still holds. -/
def dropTimers (machine : Machine α) (target : Target) (limit : Option Instant) : Machine α :=
  { machine with timers := machine.timers.filter fun timer =>
      timer.target != target || (timer.isLimit && limit.map Instant.ceilMillis == some timer.millis) }

def addLimit (machine : Machine α) (target : Target) (limit : Instant) : Machine α :=
  if machine.timers.any fun timer => timer.target == target && timer.isLimit then machine
  else machine.addTimer ⟨limit.ceilMillis, target, true⟩

def setTimers (machine : Machine α) (target : Target) : Progress α → Machine α
  | .waiting what limit _ =>
    let machine := machine.dropTimers target limit
    let machine :=
      match what with
      | .until deadline => machine.addTimer ⟨deadline.ceilMillis, target, false⟩
      | _ => machine
    match limit with
    | some t => machine.addLimit target t
    | none => machine
  | _ => machine.dropTimers target none

def runTask (machine : Machine α) (number : Nat) (seat : Option (Nat × Seat))
    (program : KernelProc α) : Machine α :=
  let (progress, seat, world) := runProc seat machine.world program
  let machine := { machine with world, tasks := machine.tasks.set number ⟨progress, seat⟩ }
  (machine.setTimers (.task number) progress).deliver

def poll (machine : Machine α) : Target → Machine α
  | .task number =>
    match machine.tasks[number]? with
    | some ⟨.waiting what limit next, seat⟩ =>
      machine.runTask number seat (Proc.ask (.wait what limit) next)
    | _ => machine
  | .worker number =>
    let world := machine.world.runWorker number World.tickBound
    let machine := ({ machine with world }.dropTimers (.worker number) none).deliver
    match world.workers[number]? with
    | some worker =>
      if worker.life = .running then
        machine.addTimer { millis := worker.due.ceilMillis, target := .worker number }
      else machine
    | none => machine

def pollForeground (machine : Machine α) : Machine α :=
  match machine.foreground with
  | some number =>
    if machine.foregroundWoken then
      { machine with foregroundWoken := false }.poll (.task number)
    else machine
  | none => machine

def roundLength : Nat := 61

/-- Goes on with a round that may still take `turns` from the queue, and then with further
rounds until nobody is left who can go on. -/
def settleWithin (machine : Machine α) (turns : Nat) : Nat → Machine α
  | 0 => machine
  | fuel + 1 =>
    match turns, machine.queue with
    | turns + 1, target :: queue => ({ machine with queue }.poll target).settleWithin turns fuel
    | _, queue =>
      if queue.isEmpty && !machine.foregroundWoken then machine
      else machine.pollForeground.settleWithin roundLength fuel

/-- At one instant a task is woken by a timer, by its turn on a flight and by the end of a
worker at most, so nobody is left within a bound in the number of tasks and workers. -/
def settle (machine : Machine α) : Machine α :=
  machine.settleWithin 0
    (16 + 16 * (machine.tasks.length + machine.world.workers.length) +
      2 * (machine.tasks.length * machine.world.workers.length))

def insertTimer (timer : Timer) : List Timer → List Timer
  | [] => [timer]
  | t :: rest => if timer.millis < t.millis then timer :: t :: rest else t :: insertTimer timer rest

def fire (machine : Machine α) : Machine α :=
  let millis := machine.world.now.floorMillis
  let due := machine.timers.filter (·.millis ≤ millis)
  if due.isEmpty then machine.settle
  else
    let machine := { machine with timers := machine.timers.filter (millis < ·.millis) }
    let inOrder := due.foldl (fun sorted timer => insertTimer timer sorted) []
    (inOrder.foldl (fun machine timer => machine.wake timer.target) machine).settle

def jump (machine : Machine α) (d : Duration) : Machine α :=
  { machine with world := { machine.world with time := machine.world.time + d.nanos } }.fire

def millisecond : Duration := ⟨10 ^ 6, by decide⟩

def advance (machine : Machine α) : Nat → Machine α
  | 0 => machine
  | n + 1 => (machine.jump millisecond).advance n

def spawn (machine : Machine α) (program : KernelProc α) (inForeground : Bool) :
    Nat × Machine α :=
  let number := machine.tasks.length
  let started : Machine α := { machine with
    tasks := machine.tasks ++ [{ progress := .cancelled }]
    foreground := if inForeground then some number else none }
  (number, (started.runTask number none program).settle)

def result? (machine : Machine α) (number : Nat) : Option α :=
  match machine.tasks[number]? with
  | some ⟨.finished result, _⟩ => some result
  | _ => none

def cancel (machine : Machine α) (number : Nat) : Machine α :=
  match machine.tasks[number]? with
  | some ⟨.waiting .., seat⟩ =>
    let world :=
      match seat with
      | some (guard, seat) => machine.world.abandon guard seat
      | none => machine.world
    (({ machine with world, tasks := machine.tasks.set number ⟨.cancelled, none⟩ }.dropTimers
      (.task number) none).deliver).settle
  | _ => machine

def await (machine : Machine α) (number : Nat) : Nat → Machine α
  | 0 => machine
  | n + 1 =>
    match machine.result? number with
    | some _ => machine
    | none => (machine.jump millisecond).await number n

end Machine

end StackedCache.Simulation

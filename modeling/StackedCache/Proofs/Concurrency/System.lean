import StackedCache.Cache.Call

/-!
# Systems of tasks

Several programs work on one cache at the same time. Each is a task, and one
step of the system is one request of one task, so that between any two
requests of a task all others may act, any number of times. The steps of a
flight are taken on the flights themselves; all other requests are answered by
the surroundings, which may change between the steps as well. A task may be
dropped where it waits for a reply; it then gives up its seat.
-/

namespace StackedCache

namespace CacheRequest

variable {Loader : Type}

def onFlight : CacheRequest Loader → Bool
  | .join _ | .turn _ | .land .. | .leave _ => true
  | _ => false

/-- A task lands its flight and leaves it in one go with what it did before. -/
def interruptible : CacheRequest Loader → Bool
  | .land .. | .leave _ => false
  | _ => true

end CacheRequest

namespace Concurrency

inductive Stance where
  | outside
  | waiting (seat : Seat)
  | leading (seat : Seat)
  /-- The outcome of the flight is known to the task. -/
  | landed (seat : Seat)
  deriving DecidableEq

namespace Stance

def seat? : Stance → Option Seat
  | .outside => none
  | .waiting seat | .leading seat | .landed seat => some seat

end Stance

inductive Task (Loader α : Type) where
  /-- A program that goes on, or has ended. -/
  | live (stance : Stance) (program : CacheProc Loader α)
  | dropped

variable {Loader α : Type}

namespace Task

def stance : Task Loader α → Stance
  | .live stance _ => stance
  | .dropped => .outside

def result? : Task Loader α → Option α
  | .live _ (Proc.done a) => some a
  | _ => none

def isOver : Task Loader α → Bool
  | .live _ (Proc.ask ..) => false
  | _ => true

end Task

/-- What the tasks work in: it answers every request that is not a step of a flight, and
changes by itself. -/
structure Surroundings (Loader : Type) where
  State : Type
  answers : State → (r : CacheRequest Loader) → r.Reply → State → Prop
  drifts : State → State → Prop

structure System (env : Surroundings Loader) (α : Type) where
  guard : Flights := {}
  state : env.State
  tasks : List (Task Loader α)

inductive Event (Loader : Type) where
  | joined (task : Nat) (seat : Seat)
  | led (task : Nat) (seat : Seat)
  | waited (task : Nat) (seat : Seat)
  | arrived (task : Nat) (seat : Seat) (outcome : Outcome)
  | landed (task : Nat) (seat : Seat) (outcome : Outcome)
  | left (task : Nat) (seat : Seat)
  | acted (task : Nat) (request : CacheRequest Loader) (reply : request.Reply)
  | cancelled (task : Nat)
  | drifted

/-- A task that is dropped passes the lead on or steps out of the line, and leaves. -/
def giveUpSeat (guard : Flights) (stance : Stance) : Flights :=
  match stance.seat? with
  | some seat => (guard.giveUp seat).2.leave seat
  | none => guard

namespace System

variable {env : Surroundings Loader}

def crew (s : System env α) : List Stance := s.tasks.map Task.stance

def setTask (s : System env α) (i : Nat) (task : Task Loader α) : System env α :=
  { s with tasks := s.tasks.set i task }

def start (state : env.State) (programs : List (CacheProc Loader α)) (guard : Flights := {}) :
    System env α where
  guard := guard
  state := state
  tasks := programs.map (.live .outside)

inductive Step (s : System env α) : Event Loader → System env α → Prop
  | join {i stance key next} (h : s.tasks[i]? = some (.live stance (Proc.ask (.join key) next))) :
    Step s (.joined i (s.guard.join key).1)
      ({ s with guard := (s.guard.join key).2 }.setTask i
        (.live (.waiting (s.guard.join key).1) (next (s.guard.join key).1)))
  | lead {i stance seat next guard} (h : s.tasks[i]? = some (.live stance (Proc.ask (.turn seat) next)))
    (hturn : s.guard.ask seat = (.lead, guard)) :
    Step s (.led i seat) ({ s with guard }.setTask i (.live (.leading seat) (next none)))
  | wait {i stance seat next guard} (h : s.tasks[i]? = some (.live stance (Proc.ask (.turn seat) next)))
    (hturn : s.guard.ask seat = (.wait, guard)) :
    Step s (.waited i seat) { s with guard }
  | arrive {i stance seat next outcome guard}
    (h : s.tasks[i]? = some (.live stance (Proc.ask (.turn seat) next)))
    (hturn : s.guard.ask seat = (.landed outcome, guard)) :
    Step s (.arrived i seat outcome)
      ({ s with guard }.setTask i (.live (.landed seat) (next (some outcome))))
  | land {i stance seat outcome next}
    (h : s.tasks[i]? = some (.live stance (Proc.ask (.land seat outcome) next))) :
    Step s (.landed i seat outcome)
      ({ s with guard := (s.guard.land seat outcome).2 }.setTask i (.live (.landed seat) (next ())))
  | leave {i stance seat next} (h : s.tasks[i]? = some (.live stance (Proc.ask (.leave seat) next))) :
    Step s (.left i seat)
      ({ s with guard := s.guard.leave seat }.setTask i (.live .outside (next ())))
  | act {i stance r next reply state} (h : s.tasks[i]? = some (.live stance (Proc.ask r next)))
    (hr : r.onFlight = false) (ha : env.answers s.state r reply state) :
    Step s (.acted i r reply) ({ s with state }.setTask i (.live stance (next reply)))
  | cancel {i stance r next} (h : s.tasks[i]? = some (.live stance (Proc.ask r next)))
    (hr : r.interruptible = true) :
    Step s (.cancelled i) ({ s with guard := giveUpSeat s.guard stance }.setTask i .dropped)
  | drift {state} (h : env.drifts s.state state) : Step s .drifted { s with state }

end System

inductive Run {σ ε : Type} (step : σ → ε → σ → Prop) (start : σ) : List ε → σ → Prop
  | refl : Run step start [] start
  | snoc {trace s e t} (h : Run step start trace s) (hs : step s e t) :
    Run step start (trace ++ [e]) t

end Concurrency

end StackedCache

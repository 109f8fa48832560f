import StackedCache.Error
import StackedCache.Table

/-!
# Flights

Concurrent loads of one key share a flight. Callers board the flight of their
key, and one of them at a time leads it: it loads, and the outcome of its load
is the outcome for all. A leader that gives up passes the lead to the caller
who has waited longest. A key has a flight exactly as long as somebody is on
board; who comes later starts a new one.
-/

namespace StackedCache

abbrev Outcome : Type := Except CacheError Bytes

structure Seat where
  key : String
  flight : Nat
  ticket : Nat
  deriving DecidableEq

structure Flight where
  outcome : Option Outcome := none
  /-- The caller who loads, or to whom the lead has been passed. -/
  leader : Option Nat := none
  /-- The callers in line for the lead, who has waited longest first. -/
  waiting : List Nat := []
  deriving Inhabited

structure Boarding where
  flight : Nat
  aboard : Nat
  deriving DecidableEq

structure Flights where
  boarding : Table Boarding := {}
  /-- All flights so far, by number. -/
  flights : List Flight := []
  tickets : Nat := 0

inductive Turn where
  | lead
  | wait
  | landed (outcome : Outcome)

namespace Flights

def inFlight (guard : Flights) : Nat := guard.boarding.size

def flight (guard : Flights) (number : Nat) : Flight := guard.flights[number]?.getD {}

def setFlight (guard : Flights) (number : Nat) (flight : Flight) : Flights :=
  { guard with flights := guard.flights.set number flight }

/-- A caller for a key takes a seat on the flight that is boarding, or on a new one. -/
def join (guard : Flights) (key : String) : Seat × Flights :=
  match guard.boarding.get? key with
  | some b =>
    (⟨key, b.flight, guard.tickets⟩,
      { guard with
        boarding := guard.boarding.insert key ⟨b.flight, b.aboard + 1⟩
        tickets := guard.tickets + 1 })
  | none =>
    (⟨key, guard.flights.length, guard.tickets⟩,
      { boarding := guard.boarding.insert key ⟨guard.flights.length, 1⟩
        flights := guard.flights ++ [{}]
        tickets := guard.tickets + 1 })

/-- The caller asks for its turn: it gets the outcome if there is one, the lead if nobody
has it or if it was passed to the caller, and else a place in the line. -/
def ask (guard : Flights) (seat : Seat) : Turn × Flights :=
  let flight := guard.flight seat.flight
  match flight.outcome with
  | some outcome => (.landed outcome, guard)
  | none =>
    match flight.leader with
    | none => (.lead, guard.setFlight seat.flight { flight with leader := some seat.ticket })
    | some leader =>
      if leader = seat.ticket then (.lead, guard)
      else if seat.ticket ∈ flight.waiting then (.wait, guard)
      else
        (.wait, guard.setFlight seat.flight
          { flight with waiting := flight.waiting ++ [seat.ticket] })

def mustWait (guard : Flights) (seat : Seat) : Bool :=
  match (guard.flight seat.flight).outcome with
  | some _ => false
  | none => (guard.flight seat.flight).leader != some seat.ticket

/-- The leader's load has ended: everybody in line can go on, who has waited longest first. -/
def land (guard : Flights) (seat : Seat) (outcome : Outcome) : List Nat × Flights :=
  ((guard.flight seat.flight).waiting,
    guard.setFlight seat.flight { outcome := some outcome })

/-- A caller who gives up passes the lead on if it has it, and else steps out of the line.
Answers with the ticket of the new leader. -/
def giveUp (guard : Flights) (seat : Seat) : List Nat × Flights :=
  let flight := guard.flight seat.flight
  if flight.leader = some seat.ticket then
    match flight.waiting with
    | [] => ([], guard.setFlight seat.flight { flight with leader := none })
    | next :: rest =>
      ([next], guard.setFlight seat.flight { flight with leader := some next, waiting := rest })
  else
    ([], guard.setFlight seat.flight
      { flight with waiting := flight.waiting.filter (· != seat.ticket) })

def leave (guard : Flights) (seat : Seat) : Flights :=
  match guard.boarding.get? seat.key with
  | none => guard
  | some b =>
    { guard with
      boarding :=
        if b.aboard - 1 = 0 then guard.boarding.erase seat.key
        else guard.boarding.insert seat.key { b with aboard := b.aboard - 1 } }

end Flights

end StackedCache

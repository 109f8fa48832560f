import StackedCache.Cache
import StackedCache.Network
import StackedCache.Redis.Store
import StackedCache.Simulation.Script

/-!
# Programs of the simulation

The lowest level of programs. Every request but one is an action on the world
at one instant; `wait` is the only one that takes time. Calls of a cache on its
layers, of a layer on its store and of a store on its server are translated
into such programs.
-/

namespace StackedCache.Simulation

inductive Wait where
  | until (deadline : Instant)
  | never
  | turn (guard : Nat) (seat : Seat)
  | worker (number : Nat)

inductive Call where
  | store (store : String) (op : StoreOp)
  | server (store : String) (command : Redis.Command)
  | loader (key : String)
  | batchLoader (keys : List String)

inductive KernelRequest where
  | now
  | draw (spread : Rat)
  | memory (number : Nat) (op : LayerOp)
  /-- Tells a memory layer's workers to stop and takes the handles of those not yet taken. -/
  | stop (number : Nat)
  /-- Reports the end of one of a memory layer's workers. -/
  | ended (number worker : Nat)
  | rules (store : String) (op : StoreOp)
  | answer (store : String) (op : StoreOp)
  | serve (store : String) (command : Redis.Command)
  | join (guard : Nat) (key : String)
  | turn (guard : Nat) (seat : Seat)
  | land (guard : Nat) (seat : Seat) (outcome : Outcome)
  | leave (guard : Nat) (seat : Seat)
  | call (call : Call)
  | notice (notice : Notice)
  | count (count : Count)
  /-- Waits, but not beyond a limit; answers whether what was waited for came. -/
  | wait (what : Wait) (limit : Option Instant)

abbrev KernelRequest.Reply : KernelRequest → Type
  | .now => Instant
  | .draw _ => Rat
  | .memory _ op => op.Answer
  | .stop _ => List Nat
  | .rules .. => List Rule
  | .answer _ op => op.Answer
  | .serve .. => List Redis.Reply
  | .join .. => Seat
  | .turn .. => Turn
  | .wait .. => Bool
  | .ended .. | .land .. | .leave .. | .call _ | .notice _ | .count _ => Unit

abbrev Kernel : Signature := ⟨KernelRequest, KernelRequest.Reply⟩

abbrev KernelProc : Type → Type := Proc Kernel

namespace KernelProc

def ask (r : KernelRequest) : KernelProc r.Reply := Proc.request (S := Kernel) r

def wait (what : Wait) : KernelProc Unit := do
  let _ ← ask (.wait what none)

def sleep (d : Duration) : KernelProc Unit := do
  let now : Instant ← ask .now
  wait (.until (now + d.nanos))

/-- Gives a program up when one of its waits lasts to the limit. What it waits for wins
when both come together. -/
def within {α : Type} (limit : Instant) : KernelProc α → KernelProc (Option α)
  | Proc.done a => Proc.done (some a)
  | Proc.ask (.wait what none) next =>
    Proc.ask (.wait what (some limit)) fun (came : Bool) =>
      if came then within limit (next true) else Proc.done none
  | Proc.ask (.wait what (some sooner)) next =>
    if sooner ≤ limit then
      Proc.ask (.wait what (some sooner)) fun (came : Bool) => within limit (next came)
    else
      Proc.ask (.wait what (some limit)) fun (came : Bool) =>
        if came then within limit (next true) else Proc.done none
  | Proc.ask r next => Proc.ask r fun reply => within limit (next reply)

/-- Follows the rules that apply to a call and then answers it. -/
def obey (store : String) (op : StoreOp) : List Rule → KernelProc op.Reply
  | [] => do
    let answer : op.Answer ← ask (.answer store op)
    pure (.ok answer)
  | rule :: rules => do
    if let some d := rule.delay then sleep d
    if rule.hang then wait .never
    match rule.failure with
    | some failure => pure (.error failure)
    | none => obey store op rules

def scriptedCall (store : String) (op : StoreOp) : KernelProc op.Reply := do
  ask (.call (.store store op))
  let rules : List Rule ← ask (.rules store op)
  obey store op rules

def scriptedStore (store : String) (batched : Bool) : Store Kernel
  | .mget keys =>
    if batched then scriptedCall store (.mget keys)
    else Store.getEach (fun key => scriptedCall store (.get key)) {} keys
  | .mset rows ttl =>
    if batched then scriptedCall store (.mset rows ttl)
    else Store.setEach (fun key value => scriptedCall store (.set key value ttl)) rows
  | .get key => scriptedCall store (.get key)
  | .set key value ttl => scriptedCall store (.set key value ttl)
  | .delete key => scriptedCall store (.delete key)
  | .ttl key => scriptedCall store (.ttl key)

def serveAll (store : String) : List Redis.Command → KernelProc (List Redis.Reply)
  | [] => pure []
  | command :: commands => do
    ask (.call (.server store command))
    let replies : List Redis.Reply ← ask (.serve store command)
    let others ← serveAll store commands
    pure (replies ++ others)

def pipeline (store : String) (commands : List Redis.Command) : KernelProc (List Redis.Reply) := do
  let replies ← serveAll store commands
  pure (replies.take commands.length)

def redisStore (store : String) : Store Kernel := fun op =>
  (Redis.store op).translate fun commands => pipeline store commands

def boundedCall (store : Store Kernel) (bound : Option Duration) (op : StoreOp) :
    KernelProc (Except CallFailure op.Answer) := do
  match bound with
  | none =>
    let reply ← store op
    return reply.mapError .failed
  | some after =>
    let now : Instant ← ask .now
    let answered : Option op.Reply ← within (now + after.nanos) (store op)
    match answered with
    | some reply => return Except.mapError .failed reply
    | none => return .error (.late after)

def storeRequest (store : Store Kernel) : (r : StoreRequest) → KernelProc r.Reply
  | .call bound op => boundedCall store bound op
  | .notice notice => ask (.notice notice)

end KernelProc

inductive StoreKind where
  | scripted (batched : Bool)
  | redis
  deriving DecidableEq

def StoreKind.store (name : String) : StoreKind → Store Kernel
  | .scripted batched => KernelProc.scriptedStore name batched
  | .redis => KernelProc.redisStore name

inductive Place where
  | memory (number : Nat)
  | network (layer : Network) (store : String) (kind : StoreKind)

structure Handle where
  name : String
  place : Place
  /-- Whether a cache sees the layer without its batch calls and without its end. -/
  single : Bool := false

namespace Handle

open KernelProc

def perform (handle : Handle) (op : LayerOp) : KernelProc op.Reply :=
  match handle.place with
  | .memory number => do
    let answer : op.Answer ← ask (.memory number op)
    pure (.ok answer)
  | .network layer store kind =>
    (layer.perform op).translate (storeRequest (kind.store store))

def waitForWorkers (number : Nat) : List Nat → KernelProc Unit
  | [] => pure ()
  | worker :: workers => do
    wait (.worker worker)
    ask (.ended number worker)
    waitForWorkers number workers

/-- Stops a memory layer's workers and waits for those that nobody waits for yet. -/
def close (handle : Handle) : KernelProc Unit :=
  match handle.place with
  | .memory number => do
    let workers : List Nat ← ask (.stop number)
    waitForWorkers number workers
  | .network .. => pure ()

end Handle

namespace KernelProc

def load (loader : ScriptedLoader) (call : Call) : KernelProc Unit := do
  ask (.call call)
  if let some d := loader.delay then sleep d
  if loader.never then wait .never

def awaitTurn (guard : Nat) (seat : Seat) : KernelProc (Option Outcome) := do
  let turn : Turn ← ask (.turn guard seat)
  match turn with
  | .lead => return none
  | .landed outcome => return some outcome
  | .wait =>
    wait (.turn guard seat)
    let turn : Turn ← ask (.turn guard seat)
    match turn with
    | .landed outcome => return some outcome
    | _ => return none

def cacheRequest (layers : List Handle) (guard : Nat) :
    (r : CacheRequest ScriptedLoader) → KernelProc r.Reply
  | .layer slot op =>
    match layers[slot]? with
    | some handle => handle.perform op
    | none => pure (.error (.backend "" ⟨"no such layer", []⟩))
  | .close slot =>
    match layers[slot]? with
    | some handle => if handle.single then pure () else handle.close
    | none => pure ()
  | .load loader => do
    load loader (.loader loader.key)
    pure loader.single
  | .loadMany loader keys => do
    load loader (.batchLoader keys)
    pure loader.many
  | .draw spread => ask (.draw spread)
  | .join key => ask (.join guard key)
  | .turn seat => awaitTurn guard seat
  | .land seat outcome => ask (.land guard seat outcome)
  | .leave seat => ask (.leave guard seat)
  | .notice notice => ask (.notice notice)
  | .count count => ask (.count count)

end KernelProc

end StackedCache.Simulation

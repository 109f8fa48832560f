import StackedCache.Proofs.Discipline
import StackedCache.Simulation.Kernel

/-!
# Requests that write for a time

A time to live of zero stands for no expiry in a layer, in a store and at a
server. A call with a time to live stays one on its way down: a layer gives its
store no other one, and a store sends at least one millisecond to its server.
-/

namespace StackedCache

open Simulation

-- ---------------------------------------------------------------------------
-- Programs
-- ---------------------------------------------------------------------------

def Discipline.only {S : Signature} (P : S.Request → Prop) : Discipline S Unit where
  permits _ r := P r
  admits _ _ _ _ := True

namespace Proc

variable {S T : Signature} {α β : Type} {P : S.Request → Prop}

/-- Whatever its requests are answered, the program makes no others than these. -/
def Asks (P : S.Request → Prop) (p : Proc S α) : Prop := p.Keeps (.only P) (fun _ _ => True) ()

theorem asks_pure (a : α) : (pure a : Proc S α).Asks P := trivial

theorem asks_request {r : S.Request} (h : P r) : (request r).Asks P := ⟨h, fun _ _ _ => trivial⟩

theorem Asks.bind {p : Proc S α} {f : α → Proc S β} (h : p.Asks P) (hf : ∀ a, (f a).Asks P) :
    (p >>= f).Asks P :=
  Keeps.bind h fun _ a _ => hf a

theorem Asks.translate {p : Proc S α} {Q : T.Request → Prop}
    {meaning : (r : S.Request) → Proc T (S.Reply r)} (h : p.Asks P)
    (hm : ∀ r, P r → (meaning r).Asks Q) : (p.translate meaning).Asks Q :=
  Keeps.translate h fun _ r hr => hm r hr

end Proc

-- ---------------------------------------------------------------------------
-- Requests
-- ---------------------------------------------------------------------------

def LayerOp.Expires : LayerOp → Prop
  | .set _ _ time | .mset _ time => time.isZero = false
  | _ => True

def StoreOp.Expires : StoreOp → Prop
  | .set _ _ time | .mset _ time => time.isZero = false
  | _ => True

def Redis.Command.Expires : Redis.Command → Prop
  | .set _ _ px => ∃ millis, px = some millis ∧ 1 ≤ millis
  | .psetex _ millis _ => 1 ≤ millis
  | _ => True

def StoreRequest.Expires : StoreRequest → Prop
  | .call _ op => op.Expires
  | .notice _ => True

def CacheRequest.Expires {Loader : Type} : CacheRequest Loader → Prop
  | .layer _ op => op.Expires
  | _ => True

def Simulation.KernelRequest.Expires : KernelRequest → Prop
  | .memory _ op => op.Expires
  | .call (.store _ op) | .rules _ op | .answer _ op => op.Expires
  | .call (.server _ command) | .serve _ command => command.Expires
  | _ => True

-- ---------------------------------------------------------------------------
-- Layers
-- ---------------------------------------------------------------------------

namespace Network

variable {layer : Network}

theorem asks_call (op : StoreOp) (h : op.Expires) :
    (layer.call op).Asks StoreRequest.Expires :=
  (Proc.asks_request (S := StoreCalls) (r := .call layer.bound op) h).bind fun _ => Proc.asks_pure _

theorem asks_get (key : String) : (layer.get key).Asks StoreRequest.Expires := by
  refine (asks_call (.get key) trivial).bind fun found => ?_
  match found with
  | .error e => exact Proc.asks_pure _
  | .ok none => exact Proc.asks_pure _
  | .ok (some payload) =>
    refine (asks_call (.ttl key) trivial).bind fun remaining => ?_
    cases remaining with
    | ok remaining => exact Proc.asks_pure _
    | error e =>
      exact (Proc.asks_request (S := StoreCalls) (r := .notice _) trivial).bind fun _ => Proc.asks_pure _

theorem asks_perform {op : LayerOp} (h : op.Expires) :
    (layer.perform op).Asks StoreRequest.Expires := by
  cases op with
  | get key => exact asks_get key
  | set key payload ttl => exact asks_call _ h
  | delete key => exact asks_call (.delete key) trivial
  | mget keys =>
    simp only [perform, mget]
    split
    · exact Proc.asks_pure _
    · refine (asks_call (.mget keys) trivial).bind fun found => ?_
      cases found <;> exact Proc.asks_pure _
  | mset items ttl =>
    simp only [perform, mset]
    split
    · exact Proc.asks_pure _
    · exact asks_call _ h

end Network

-- ---------------------------------------------------------------------------
-- Stores
-- ---------------------------------------------------------------------------

namespace Redis

theorem asks_send {α : Type} {commands : List Command} (h : ∀ command ∈ commands, command.Expires)
    (read : List Reply → Except Failure α) :
    (send commands read).Asks fun (commands : List Command) => ∀ command ∈ commands, command.Expires :=
  (Proc.asks_request (S := ServerCalls) (r := commands) h).bind fun _ => Proc.asks_pure _

theorem asks_sendOne {α : Type} (command : Command) (h : command.Expires)
    (read : Reply → Except Failure α) :
    (sendOne command read).Asks fun (commands : List Command) => ∀ command ∈ commands, command.Expires :=
  asks_send (List.forall_mem_singleton.mpr h) _

theorem asks_store {op : StoreOp} (h : op.Expires) :
    (store op).Asks fun (commands : List Command) => ∀ command ∈ commands, command.Expires := by
  cases op with
  | get key => exact asks_sendOne (.get key) trivial _
  | set key value ttl =>
    have hlasting : ttl.isZero = false := h
    refine asks_sendOne (singleWrite key value ttl) ?_ fun _ => .ok ()
    rw [singleWrite, hlasting]
    exact one_le_ttlMillis ttl
  | delete key => exact asks_sendOne (.del key) trivial fun _ => .ok ()
  | ttl key => exact asks_sendOne (.pttl key) trivial _
  | mget keys =>
    simp only [store]
    split
    · exact Proc.asks_pure _
    · exact asks_sendOne (.mget keys) trivial _
  | mset rows ttl =>
    have hlasting : ttl.isZero = false := h
    simp only [store]
    split
    · exact Proc.asks_pure _
    · refine asks_send (List.forall_mem_map.mpr fun row _ => ?_) _
      exact ⟨ttlMillis ttl, by simp [hlasting], one_le_ttlMillis ttl⟩

end Redis

-- ---------------------------------------------------------------------------
-- The simulation
-- ---------------------------------------------------------------------------

namespace Simulation.KernelProc

variable {α : Type}

theorem asks_ask (r : KernelRequest) (h : r.Expires) : (ask r).Asks KernelRequest.Expires :=
  Proc.asks_request (S := Kernel) h

theorem asks_wait (what : Wait) : (wait what).Asks KernelRequest.Expires :=
  (asks_ask (.wait what none) trivial).bind fun _ => Proc.asks_pure _

theorem asks_sleep (d : Duration) : (sleep d).Asks KernelRequest.Expires :=
  (asks_ask .now trivial).bind fun _ => asks_wait _

theorem asks_within (limit : Instant) {p : KernelProc α} (h : p.Asks KernelRequest.Expires) :
    (within limit p).Asks KernelRequest.Expires := by
  induction p with
  | done a => exact trivial
  | ask r next ih =>
    have hnext (reply : KernelRequest.Reply r) : (within limit (next reply)).Asks KernelRequest.Expires :=
      ih reply (h.2 reply () trivial)
    have hlimited (what : Wait) (next : Bool → KernelProc α)
        (hnext : (within limit (next true)).Asks KernelRequest.Expires) :
        (Proc.ask (S := Kernel) (.wait what (some limit)) fun (came : Bool) =>
          if came then within limit (next true) else Proc.done none).Asks KernelRequest.Expires := by
      refine ⟨trivial, fun came _ _ => ?_⟩
      cases came
      · exact trivial
      · exact hnext
    match r with
    | .wait what none => exact hlimited what next (hnext true)
    | .wait what (some sooner) =>
      unfold within
      split
      · exact ⟨trivial, fun came _ _ => hnext came⟩
      · exact hlimited what next (hnext true)
    | .now | .draw _ | .memory .. | .stop _ | .ended .. | .rules .. | .answer .. | .serve .. | .join ..
    | .turn .. | .land .. | .leave .. | .call _ | .notice _ | .count _ =>
      exact ⟨h.1, fun reply _ _ => hnext reply⟩

theorem asks_obey (name : String) {op : StoreOp} (h : op.Expires) (rules : List Rule) :
    (obey name op rules).Asks KernelRequest.Expires := by
  induction rules with
  | nil => exact (asks_ask (.answer name op) h).bind fun _ => Proc.asks_pure _
  | cons rule rules ih =>
    have hpaused {rest : KernelProc op.Reply} (hrest : rest.Asks KernelRequest.Expires) :
        (if rule.hang then wait .never >>= fun _ => rest else rest).Asks KernelRequest.Expires := by
      split
      · exact (asks_wait .never).bind fun _ => hrest
      · exact hrest
    unfold obey
    cases rule.failure with
    | none =>
      cases rule.delay with
      | none => exact hpaused ih
      | some d => exact (asks_sleep d).bind fun _ => hpaused ih
    | some failure =>
      cases rule.delay with
      | none => exact hpaused (Proc.asks_pure _)
      | some d => exact (asks_sleep d).bind fun _ => hpaused (Proc.asks_pure _)

theorem asks_scriptedCall (name : String) (op : StoreOp) (h : op.Expires) :
    (scriptedCall name op).Asks KernelRequest.Expires :=
  (asks_ask (.call (.store name op)) h).bind fun _ =>
    (asks_ask (.rules name op) h).bind fun rules => asks_obey name h rules

theorem asks_getEach {get : String → KernelProc (Except Failure (Option Bytes))}
    (h : ∀ key, (get key).Asks KernelRequest.Expires) (found : Table Bytes) (keys : List String) :
    (Store.getEach get found keys).Asks KernelRequest.Expires := by
  induction keys generalizing found with
  | nil => exact Proc.asks_pure _
  | cons key keys ih =>
    refine (h key).bind fun value => ?_
    match value with
    | .error e => exact Proc.asks_pure _
    | .ok none => exact ih found
    | .ok (some value) => exact ih _

theorem asks_setEach {set : String → Bytes → KernelProc (Except Failure Unit)}
    (h : ∀ key value, (set key value).Asks KernelRequest.Expires) (rows : List (String × Bytes)) :
    (Store.setEach set rows).Asks KernelRequest.Expires := by
  induction rows with
  | nil => exact Proc.asks_pure _
  | cons row rows ih =>
    refine (h row.1 row.2).bind fun written => ?_
    cases written with
    | error e => exact Proc.asks_pure _
    | ok _ => exact ih

theorem asks_scriptedStore (name : String) (batched : Bool) {op : StoreOp} (h : op.Expires) :
    (scriptedStore name batched op).Asks KernelRequest.Expires := by
  cases op with
  | mget keys =>
    simp only [scriptedStore]
    split
    · exact asks_scriptedCall name _ h
    · exact asks_getEach (fun key => asks_scriptedCall name (.get key) trivial) _ _
  | mset rows ttl =>
    simp only [scriptedStore]
    split
    · exact asks_scriptedCall name _ h
    · exact asks_setEach (fun key value => asks_scriptedCall name (.set key value ttl) h) _
  | _ => exact asks_scriptedCall name _ h

theorem asks_serveAll (name : String) {commands : List Redis.Command}
    (h : ∀ command ∈ commands, command.Expires) :
    (serveAll name commands).Asks KernelRequest.Expires := by
  induction commands with
  | nil => exact Proc.asks_pure _
  | cons command commands ih =>
    obtain ⟨hfirst, hrest⟩ := List.forall_mem_cons.mp h
    refine (asks_ask (.call (.server name command)) hfirst).bind fun _ => ?_
    refine (asks_ask (.serve name command) hfirst).bind fun _ => ?_
    exact (ih hrest).bind fun _ => Proc.asks_pure _

theorem asks_store (name : String) (kind : StoreKind) {op : StoreOp} (h : op.Expires) :
    (kind.store name op).Asks KernelRequest.Expires := by
  cases kind with
  | scripted batched => exact asks_scriptedStore name batched h
  | redis =>
    exact (Redis.asks_store h).translate fun commands hcommands =>
      (asks_serveAll name hcommands).bind fun _ => Proc.asks_pure _

theorem asks_storeRequest {store : Store Kernel}
    (hstore : ∀ op : StoreOp, op.Expires → (store op).Asks KernelRequest.Expires) {r : StoreRequest}
    (h : r.Expires) : (storeRequest store r).Asks KernelRequest.Expires := by
  cases r with
  | notice n => exact asks_ask (.notice n) trivial
  | call bound op =>
    cases bound with
    | none => exact (hstore op h).bind fun _ => Proc.asks_pure _
    | some after =>
      refine (asks_ask .now trivial).bind fun now => ?_
      refine (asks_within _ (hstore op h)).bind fun answered => ?_
      cases answered <;> exact Proc.asks_pure _

theorem asks_perform (handle : Handle) {op : LayerOp} (h : op.Expires) :
    (handle.perform op).Asks KernelRequest.Expires := by
  unfold Handle.perform
  split
  · exact (asks_ask (.memory _ op) h).bind fun _ => Proc.asks_pure _
  · exact (Network.asks_perform h).translate fun r hr =>
      asks_storeRequest (fun op hop => asks_store _ _ hop) hr

theorem asks_close (handle : Handle) : handle.close.Asks KernelRequest.Expires := by
  have hworkers (number : Nat) (workers : List Nat) :
      (Handle.waitForWorkers number workers).Asks KernelRequest.Expires := by
    induction workers with
    | nil => exact Proc.asks_pure _
    | cons worker workers ih =>
      exact (asks_wait _).bind fun _ => (asks_ask (.ended number worker) trivial).bind fun _ => ih
  unfold Handle.close
  split
  · exact (asks_ask (.stop _) trivial).bind fun _ => hworkers _ _
  · exact Proc.asks_pure _

theorem asks_load (loader : ScriptedLoader) (call : Call) (h : (KernelRequest.call call).Expires) :
    (load loader call).Asks KernelRequest.Expires := by
  refine (asks_ask (.call call) h).bind fun _ => ?_
  have hend : (if loader.never then wait .never else pure () : KernelProc Unit).Asks
      KernelRequest.Expires := by
    split
    · exact asks_wait .never
    · exact Proc.asks_pure _
  cases loader.delay with
  | none => exact hend
  | some d => exact (asks_sleep d).bind fun _ => hend

theorem asks_awaitTurn (guard : Nat) (seat : Seat) :
    (awaitTurn guard seat).Asks KernelRequest.Expires := by
  refine (asks_ask (.turn guard seat) trivial).bind fun (turn : Turn) => ?_
  cases turn with
  | lead => exact Proc.asks_pure _
  | landed outcome => exact Proc.asks_pure _
  | wait =>
    refine (asks_wait _).bind fun _ => (asks_ask (.turn guard seat) trivial).bind fun (turn : Turn) => ?_
    cases turn <;> exact Proc.asks_pure _

/-- What a cache asks of its layers goes down to their servers with an expiry. -/
theorem asks_cacheRequest (layers : List Handle) (guard : Nat) {r : CacheRequest ScriptedLoader}
    (h : r.Expires) : (cacheRequest layers guard r).Asks KernelRequest.Expires := by
  cases r with
  | layer slot op =>
    simp only [cacheRequest]
    split
    · exact asks_perform _ h
    · exact Proc.asks_pure _
  | close slot =>
    simp only [cacheRequest]
    split
    · split
      · exact Proc.asks_pure _
      · exact asks_close _
    · exact Proc.asks_pure _
  | load loader =>
    exact (asks_load loader (.loader loader.key) trivial).bind fun _ => Proc.asks_pure _
  | loadMany loader keys =>
    exact (asks_load loader (.batchLoader keys) trivial).bind fun _ => Proc.asks_pure _
  | turn seat => exact asks_awaitTurn guard seat
  | _ => exact asks_ask _ trivial

end Simulation.KernelProc

end StackedCache

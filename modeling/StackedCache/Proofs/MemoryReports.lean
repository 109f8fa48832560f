import StackedCache.Proofs.MemoryAccounts
import StackedCache.Simulation.World

/-!
# Reports of a memory layer

A memory layer in the world, with its workers: it is called, cleared and
cleaned up, the sweeper ticks and the reporter ticks, at any times. Whatever
the order, the counters are what the history of the layer says, and each
report has them as they were at its tick.
-/

namespace StackedCache

open Simulation

namespace Simulation

inductive Move where
  | call (op : LayerOp)
  | clear
  | cleanup
  /-- A tick of one of its workers. -/
  | tick (worker : Worker)

def Move.act? : Move → Option MemoryAct
  | .call op => some (.call op)
  | .clear => some .clear
  | .cleanup => some .sweep
  | .tick worker => if worker.duty = .sweep then some .sweep else none

structure Moment where
  /-- Nanoseconds since the start. -/
  time : Nat
  move : Move

namespace Moment

def event? (moment : Moment) : Option MemoryEvent :=
  moment.move.act?.map (MemoryEvent.mk (10 ^ 12 + moment.time))

/-- Where a report goes. One that breaks its sink goes nowhere. -/
def sink? (moment : Moment) : Option Sink :=
  match moment.move with
  | .tick worker =>
    match worker.duty with
    | .report .broken | .sweep => none
    | .report sink => some sink
  | _ => none

end Moment

namespace World

def changeMemory (world : World) (number : Nat) (change : Memory → Memory) : World :=
  world.setMemory number { world.memory number with memory := change (world.memory number).memory }

def pass (number : Nat) (world : World) (moment : Moment) : World :=
  let world := { world with time := moment.time }
  match moment.move with
  | .call op => (world.memoryCall number op).2
  | .clear => world.changeMemory number Memory.clear
  | .cleanup => world.changeMemory number fun memory => (memory.sweep world.now).2
  | .tick worker => (world.tick { worker with layer := number }).2

def passAll (world : World) (number : Nat) (moments : List Moment) : World :=
  moments.foldl (pass number) world

def report? : Notice → Option HitRate
  | .hitRate report => some report
  | _ => none

def reported (world : World) : Sink → List HitRate
  | .keep => world.samples.map Sample.content
  | .notice => world.notices.filterMap report?
  | .broken => []

end World

end Simulation

def Memory.endure (memory : Memory) (moment : Moment) : Memory :=
  match moment.event? with
  | some event => memory.undergo event
  | none => memory

def Memory.rate (memory : Memory) (name : String) : HitRate := ⟨name, memory.gets, memory.hits⟩

section
variable {world : World} {number : Nat} {layer : MemoryLayer} {moment : Moment}

theorem memory_of_getElem? (h : world.memories[number]? = some layer) : world.memory number = layer := by
  rw [World.memory, h]
  rfl

theorem setMemory_getElem? (h : world.memories[number]? = some layer) (layer' : MemoryLayer) :
    (world.setMemory number layer').memories[number]? = some layer' := by
  have hlength : number < world.memories.length := (List.getElem?_eq_some_iff.mp h).1
  simp [World.setMemory, hlength]

theorem pass_layer (h : world.memories[number]? = some layer) (moment : Moment) :
    (world.pass number moment).memories[number]? = some { layer with memory := layer.memory.endure moment } := by
  obtain ⟨time, move⟩ := moment
  have hlayer : ({ world with time } : World).memory number = layer := memory_of_getElem? h
  have hset (memory : Memory) : (World.setMemory { world with time } number
      { layer with memory }).memories[number]? = some { layer with memory } :=
    setMemory_getElem? h _
  cases move with
  | call op =>
    simp only [World.pass, World.memoryCall, hlayer]
    split <;> exact hset _
  | clear =>
    simp only [World.pass, World.changeMemory, hlayer]
    exact hset _
  | cleanup =>
    simp only [World.pass, World.changeMemory, hlayer]
    exact hset _
  | tick worker =>
    cases hduty : worker.duty with
    | sweep =>
      have hswept : layer.memory.endure ⟨time, .tick worker⟩ = (layer.memory.sweep (10 ^ 12 + time)).2 := by
        simp [Memory.endure, Moment.event?, Move.act?, hduty, Memory.undergo]
      simp only [World.pass, World.tick, hduty, hlayer, hswept]
      split <;> exact hset _
    | report sink =>
      have hsame : layer.memory.endure ⟨time, .tick worker⟩ = layer.memory := by
        simp [Memory.endure, Moment.event?, Move.act?, hduty]
      rw [hsame]
      simp only [World.pass, World.tick, hduty]
      split <;> exact h

theorem pass_reported (h : world.memories[number]? = some layer) (moment : Moment) (sink : Sink) :
    (world.pass number moment).reported sink =
      if moment.sink? = some sink then layer.memory.rate layer.name :: world.reported sink
      else world.reported sink := by
  obtain ⟨time, move⟩ := moment
  have hlayer : ({ world with time } : World).memory number = layer := memory_of_getElem? h
  -- what is logged otherwise is no report
  cases move with
  | call op =>
    simp only [World.pass, World.memoryCall]
    split <;> cases sink <;> rfl
  | clear => cases sink <;> rfl
  | cleanup => cases sink <;> rfl
  | tick worker =>
    cases hduty : worker.duty with
    | sweep =>
      simp only [World.pass, World.tick, hduty, Moment.sink?]
      split <;> cases sink <;> rfl
    | report sink' =>
      simp only [World.pass, World.tick, hduty, hlayer, Moment.sink?]
      cases sink' <;> cases sink <;> rfl

-- ---------------------------------------------------------------------------
-- Whole runs
-- ---------------------------------------------------------------------------

def eventsOf (moments : List Moment) : List MemoryEvent := moments.filterMap Moment.event?

theorem passAll_concat (world : World) (number : Nat) (moments : List Moment) (moment : Moment) :
    world.passAll number (moments ++ [moment]) = (world.passAll number moments).pass number moment := by
  simp [World.passAll, List.foldl_append]

theorem replay_concat (memory : Memory) (moments : List Moment) (moment : Moment) :
    memory.replay (eventsOf (moments ++ [moment])) = (memory.replay (eventsOf moments)).endure moment := by
  simp only [eventsOf, List.filterMap_append, Memory.replay, List.foldl_append, Memory.endure]
  cases hevent : moment.event? <;> simp [hevent]

/-- Nothing but its events makes a difference to the items and the counters of the layer. -/
theorem passAll_layer (h : world.memories[number]? = some layer) (moments : List Moment) :
    (world.passAll number moments).memories[number]? =
      some { layer with memory := layer.memory.replay (eventsOf moments) } := by
  induction moments using List.reverseRecOn with
  | nil => exact h
  | append_singleton moments moment ih =>
    rw [passAll_concat, pass_layer ih moment, replay_concat]

theorem endure_counters (memory : Memory) (moment : Moment) :
    memory.gets ≤ (memory.endure moment).gets ∧ memory.hits ≤ (memory.endure moment).hits := by
  unfold Memory.endure
  split
  · rename_i event hevent
    rw [memory.undergo_gets, memory.undergo_hits]
    exact ⟨Nat.le_add_right .., Nat.le_add_right ..⟩
  · exact ⟨Nat.le_refl _, Nat.le_refl _⟩

/-- The report does not have more than the other one. -/
def HitRate.Within (report later : HitRate) : Prop :=
  report.gets ≤ later.gets ∧ report.hits ≤ later.hits

theorem passAll_reported (h : world.memories[number]? = some layer) {sink : Sink}
    (hnone : world.reported sink = []) (moments : List Moment) :
    (∀ report ∈ (world.passAll number moments).reported sink,
      report.Within ((layer.memory.replay (eventsOf moments)).rate layer.name)) ∧
    ((world.passAll number moments).reported sink).Pairwise fun later earlier => earlier.Within later := by
  induction moments using List.reverseRecOn with
  | nil =>
    have hstart : (world.passAll number []).reported sink = [] := hnone
    simp [hstart]
  | append_singleton moments moment ih =>
    obtain ⟨hwithin, hsorted⟩ := ih
    have hmore := endure_counters (layer.memory.replay (eventsOf moments)) moment
    have hlater (report : HitRate) (hreport : report.Within ((layer.memory.replay (eventsOf moments)).rate layer.name)) :
        report.Within ((layer.memory.replay (eventsOf (moments ++ [moment]))).rate layer.name) := by
      rw [replay_concat]
      exact ⟨Nat.le_trans hreport.1 hmore.1, Nat.le_trans hreport.2 hmore.2⟩
    rw [passAll_concat, pass_reported (passAll_layer h moments)]
    split
    · refine ⟨List.forall_mem_cons.mpr ⟨hlater _ ⟨Nat.le_refl _, Nat.le_refl _⟩, ?_⟩, hsorted.cons hwithin⟩
      exact fun report hreport => hlater report (hwithin report hreport)
    · exact ⟨fun report hreport => hlater report (hwithin report hreport), hsorted⟩

/-- Whatever a new memory layer goes through, at any times: its counters are the number of the keys that
have been looked up, of those lookups that have found an entry, and of the items that have been removed
because they had expired. The writes under keys not held are what is held, the items that have expired
and been removed, the deletes of held keys and what clears have dropped. A report has the counters as
they are at its tick, so no report has less than one before. -/
theorem memory_accounts {limit : Nat} (hlayer : world.memories[number]? = some layer)
    (hfresh : layer.memory = { limit }) (hnone : ∀ sink, world.reported sink = []) (moments : List Moment) :
    let start : Memory := { limit }
    let after := world.passAll number moments
    start.Accounted (after.memory number).memory (eventsOf moments) ∧
    (∀ moment sink, (after.pass number moment).reported sink =
      if moment.sink? = some sink then
        ⟨layer.name, start.total (fun _ event => event.act.lookups) (eventsOf moments),
          start.total Memory.found (eventsOf moments)⟩ :: after.reported sink
      else after.reported sink) ∧
    ∀ sink, (after.reported sink).Pairwise fun later earlier =>
      earlier.gets ≤ later.gets ∧ earlier.hits ≤ later.hits := by
  intro start after
  have hafter := passAll_layer hlayer moments
  rw [hfresh] at hafter
  have haccounts := Memory.accounted_replay limit (eventsOf moments)
  refine ⟨?_, fun moment sink => ?_, fun sink => (passAll_reported hlayer (hnone sink) moments).2⟩
  · rw [memory_of_getElem? hafter]
    exact haccounts
  · rw [pass_reported hafter, Memory.rate, haccounts.gets, haccounts.hits]

end

def smallLayer : World where
  memories := [{ name := "L1", memory := { limit := 1 } }]

def expiringRun : List Moment := [
  ⟨0, .call (.set "a" [1] ⟨5, by decide⟩)⟩,
  ⟨1, .call (.set "b" [2] .zero)⟩,
  ⟨5, .call (.mget ["a", "a", "b"])⟩,
  ⟨6, .tick { layer := 0, duty := .sweep, period := .zero, due := 6 }⟩,
  ⟨6, .call (.delete "b")⟩]

theorem memory_accounts_expiring :
    ((smallLayer.passAll 0 expiringRun).memory 0).memory.evictions = 1 ∧
    ((smallLayer.passAll 0 expiringRun).memory 0).memory.entries.size = 0 ∧
    ((smallLayer.passAll 0 expiringRun).pass 0
      ⟨7, .tick { layer := 0, duty := .report .keep, period := .zero, due := 7 }⟩).reported .keep =
      [⟨"L1", 3, 1⟩] := by
  have hlayer : smallLayer.memories[0]? = some { name := "L1", memory := { limit := 1 } } := rfl
  have hnone : ∀ sink, smallLayer.reported sink = [] := fun sink => by cases sink <;> rfl
  obtain ⟨haccounts, hreported, -⟩ := memory_accounts hlayer rfl hnone expiringRun
  refine ⟨haccounts.evictions.trans (by decide), by decide, ?_⟩
  rw [hreported]
  decide

end StackedCache

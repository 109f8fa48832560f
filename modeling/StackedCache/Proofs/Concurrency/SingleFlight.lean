import StackedCache.Proofs.Concurrency.Balance
import StackedCache.Proofs.Concurrency.Clients
import StackedCache.Proofs.Concurrency.Place
import StackedCache.Proofs.RecordTruncation

/-!
# Single flight calls one loader

Callers read a key through their loaders under single flight, while others use
the cache as they like and leave the key alone. The stage of the key ties the
layers, the flights and the tasks together: what the layers have under the key,
which outcome a flight has, and how often a loader was called all follow from
it, and each task keeps the discipline from there.
-/

namespace StackedCache.Concurrency

open Simulation

variable {stack : Stack} {key : String} {n : Nat} {stage stage' : Stage}

def Event.callerLoad? (n : Nat) : Event ScriptedLoader → Option Finding
  | .acted i (.load _) reply => if i < n then some reply else none
  | _ => none

def callerLoads (n : Nat) (trace : List (Event ScriptedLoader)) : List Finding :=
  trace.filterMap (Event.callerLoad? n)

theorem callerLoads_snoc (n : Nat) (trace : List (Event ScriptedLoader)) (e : Event ScriptedLoader) :
    callerLoads n (trace ++ [e]) = callerLoads n trace ++ (e.callerLoad? n).toList := by
  simp only [callerLoads, List.filterMap_append]
  cases h : e.callerLoad? n <;> simp [h]

-- ---------------------------------------------------------------------------
-- Tasks
-- ---------------------------------------------------------------------------

def Task.Heeds (stack : Stack) (key : String) (caller : Prop) (stage : Stage) :
    Task ScriptedLoader Answer → Prop
  | .live stance p => p.Keeps (minding stack key caller) (Finished caller) ⟨stage, stance⟩ ∧
    ∀ seat, stance.seat? = some seat → (seat.key = key ↔ caller)
  | .dropped => ¬caller

section
variable {caller : Prop} {task : Task ScriptedLoader Answer}

theorem Task.Heeds.permitted (h : task.Heeds stack key caller stage) : task.Permitted := by
  cases task with
  | dropped => trivial
  | live stance p =>
    cases p with
    | done answer => exact h.1.1
    | ask r next => exact h.1.1.1

theorem Task.Heeds.advance (h : task.Heeds stack key caller stage) (hle : stage ≤ stage')
    (hl : ∀ seat, task.stance = .leading seat → seat.key ≠ key) :
    task.Heeds stack key caller stage' := by
  cases task with
  | dropped => exact h
  | live stance p =>
    have hnot : ¬Outlook.Leads ⟨stage', stance⟩ key := by
      rintro ⟨seat, hseat, hkey⟩
      exact hl seat hseat hkey
    refine ⟨keeps_advance h.1 hle hnot ?_, h.2⟩
    rintro answer ⟨hout, hanswer⟩
    refine ⟨hout, fun hc => ?_⟩
    obtain ⟨finding, hfinding, heq⟩ := hanswer hc
    exact ⟨finding, Stage.finding_of_le hle hfinding, heq⟩

end

-- ---------------------------------------------------------------------------
-- The stage of the key in a system
-- ---------------------------------------------------------------------------

/-- The system has brought the key to a stage. -/
structure Sharing (stack : Stack) (key : String) (n : Nat) (trace : List (Event ScriptedLoader))
    (stage : Stage) (s : System (inPlace ScriptedLoader) Answer) : Prop where
  coordinated : Coordinated s.guard s.crew
  heeds {i : Nat} {task : Task ScriptedLoader Answer} : s.tasks[i]? = some task →
    task.Heeds stack key (i < n) stage
  place : Place.At stack key stage s.state
  loads : callerLoads n trace = stage.finding?.toList
  /-- Between the load and the last write somebody leads. -/
  led {finding : Finding} : stage = .loaded finding →
    ∃ (i : Nat) (seat : Seat), s.crew[i]? = some (.leading seat) ∧ seat.key = key
  landed {b : Boarding} {outcome : Outcome} : s.guard.boarding.get? key = some b →
    (s.guard.flight b.flight).outcome = some outcome →
    ∃ finding : Finding, stage = .settled finding ∧ outcome = finding.outcome

/-- A step in which no caller is dropped, and what the last layer has under the key does not
expire. -/
structure CalmStep (stack : Stack) (key : String) (n : Nat)
    (s : System (inPlace ScriptedLoader) Answer) (e : Event ScriptedLoader)
    (t : System (inPlace ScriptedLoader) Answer) : Prop where
  step : System.Step s e t
  calm {i : Nat} : e = .cancelled i → ¬i < n
  lasting {slot : Nat} : e = .drifted → stack.lowest? = some slot →
    (Place.shown s.state slot key).isSome → (Place.shown t.state slot key).isSome

/-- Nobody is dropped, and nothing happens to the layers by itself. -/
def Event.isCalm : Event ScriptedLoader → Bool
  | .cancelled _ | .drifted => false
  | _ => true

section
variable {trace : List (Event ScriptedLoader)} {s t : System (inPlace ScriptedLoader) Answer}
  {e : Event ScriptedLoader}

theorem CalmStep.of_isCalm (hs : System.Step s e t) (he : e.isCalm = true) :
    CalmStep stack key n s e t := by
  refine ⟨hs, ?_, ?_⟩
  · rintro i rfl
    cases he
  · rintro slot rfl
    cases he

theorem CalmStep.act {i : Nat} {stance : Stance} {r : CacheRequest ScriptedLoader}
    {next : r.Reply → CacheProc ScriptedLoader Answer} {state : Place} (reply : r.Reply)
    (hi : s.tasks[i]? = some (.live stance (Proc.ask r next))) (hr : r.onFlight = false)
    (ha : Place.answers s.state r reply state) :
    CalmStep stack key n s (.acted i r reply)
      ({ s with state := state }.setTask i (.live stance (next reply))) :=
  .of_isCalm (.act hi hr ha) rfl

theorem Sharing.orderly (h : Sharing stack key n trace stage s) : s.Orderly :=
  ⟨h.coordinated, fun hi => (h.heeds hi).permitted⟩

theorem Sharing.asks (h : Sharing stack key n trace stage s) {i : Nat} {stance : Stance}
    {r : CacheRequest ScriptedLoader} {next : r.Reply → CacheProc ScriptedLoader Answer}
    (hi : s.tasks[i]? = some (.live stance (Proc.ask r next))) :
    (minding stack key (i < n)).permits ⟨stage, stance⟩ r ∧
    (∀ reply later, (minding stack key (i < n)).admits ⟨stage, stance⟩ r reply later →
      (next reply).Keeps (minding stack key (i < n)) (Finished (i < n)) later) ∧
    ∀ seat, stance.seat? = some seat → (seat.key = key ↔ i < n) :=
  ⟨(h.heeds hi).1.1, (h.heeds hi).1.2, (h.heeds hi).2⟩

theorem Sharing.landed_step (h : Sharing stack key n trace stage s) (hs : System.Step s e t)
    (hle : stage ≤ stage') {b : Boarding} {outcome : Outcome}
    (hb : t.guard.boarding.get? key = some b)
    (ho : (t.guard.flight b.flight).outcome = some outcome) :
    ∃ finding : Finding, stage' = .settled finding ∧ outcome = finding.outcome := by
  refine h.orderly.outcome_step
    (P := fun outcome => ∃ finding : Finding, stage' = .settled finding ∧ outcome = finding.outcome)
    hs (fun hb ho => ?_) (fun _ hi hkey => ?_) hb ho
  · obtain ⟨finding, rfl, houtcome⟩ := h.landed hb ho
    exact ⟨finding, Stage.settled_le hle, houtcome⟩
  · obtain ⟨⟨-, hland⟩, -, -⟩ := h.asks hi
    obtain ⟨finding, rfl, houtcome⟩ := hland hkey
    exact ⟨finding, Stage.settled_le hle, houtcome⟩

theorem Sharing.heeds_set (h : Sharing stack key n trace stage s) {i : Nat}
    {old new : Task ScriptedLoader Answer} (hi : s.tasks[i]? = some old) (hle : stage ≤ stage')
    (hsole : stage' = stage ∨ ∃ seat : Seat, old.stance = .leading seat ∧ seat.key = key)
    (hnew : new.Heeds stack key (i < n) stage') {j : Nat} {task : Task ScriptedLoader Answer}
    (hj : (s.tasks.set i new)[j]? = some task) : task.Heeds stack key (j < n) stage' := by
  rw [List.getElem?_set] at hj
  split at hj
  · rename_i hij
    subst hij
    split at hj
    · cases hj
      exact hnew
    · cases hj
  · rename_i hij
    rcases hsole with rfl | ⟨seat, hstance, hkey⟩
    · exact h.heeds hj
    · refine (h.heeds hj).advance hle fun seat' hstance' hkey' => hij ?_
      exact h.coordinated.exclusive (hstance ▸ System.crew_of_task hi)
        (hstance' ▸ System.crew_of_task hj) (hkey.trans hkey'.symm)

theorem Sharing.stay (h : Sharing stack key n trace stage s) (hs : System.Step s e t) {i : Nat}
    {old new : Task ScriptedLoader Answer} (hi : s.tasks[i]? = some old)
    (htasks : t.tasks = s.tasks.set i new) (hstate : t.state = s.state)
    (hload : e.callerLoad? n = none) (hnew : new.Heeds stack key (i < n) stage)
    -- nobody stops leading while the key is being written
    (hleads : ∀ seat : Seat, old.stance = .leading seat → new.stance = .leading seat ∨
      seat.key ≠ key ∨ ∀ finding, stage ≠ .loaded finding) :
    Sharing stack key n (trace ++ [e]) stage t := by
  refine ⟨h.orderly.coordinated_step hs, ?_, hstate ▸ h.place, ?_, ?_,
    h.landed_step hs (Stage.le_refl _)⟩
  · intro j task hj
    rw [htasks] at hj
    exact h.heeds_set hi (Stage.le_refl _) (.inl rfl) hnew hj
  · rw [callerLoads_snoc, hload, h.loads]
    exact List.append_nil _
  · intro finding hfinding
    obtain ⟨j, seat, hj, hkey⟩ := h.led hfinding
    refine ⟨j, seat, ?_, hkey⟩
    have hcrew : t.crew = s.crew.set i new.stance := by
      simp [System.crew, htasks, List.map_set]
    rw [hcrew, List.getElem?_set]
    split
    · rename_i hij
      subst hij
      have hstance : old.stance = .leading seat :=
        Option.some.inj ((System.crew_of_task hi).symm.trans hj)
      rcases hleads seat hstance with hnew | hother | hnone
      · simp [hnew, (List.getElem?_eq_some_iff.mp hj).1]
      · exact absurd hkey hother
      · exact absurd hfinding (hnone finding)
    · exact hj

theorem Sharing.same_tasks (h : Sharing stack key n trace stage s) (hs : System.Step s e t)
    (htasks : t.tasks = s.tasks) (hplace : Place.At stack key stage t.state)
    (hload : e.callerLoad? n = none) : Sharing stack key n (trace ++ [e]) stage t := by
  refine ⟨h.orderly.coordinated_step hs, ?_, hplace, ?_, ?_, h.landed_step hs (Stage.le_refl _)⟩
  · intro j task hj
    exact h.heeds (htasks ▸ hj)
  · rw [callerLoads_snoc, hload, h.loads]
    exact List.append_nil _
  · intro finding hfinding
    have hcrew : t.crew = s.crew := congrArg (List.map Task.stance) htasks
    exact hcrew ▸ h.led hfinding

theorem Sharing.answered (h : Sharing stack key n trace stage s) {i : Nat} {stance : Stance}
    {r : CacheRequest ScriptedLoader} {next : r.Reply → CacheProc ScriptedLoader Answer}
    {reply : r.Reply} {state : Place}
    (hs : System.Step s (.acted i r reply)
      ({ s with state := state }.setTask i (.live stance (next reply))))
    (hi : s.tasks[i]? = some (.live stance (Proc.ask r next))) (hle : stage ≤ stage')
    (hadmits : (minding stack key (i < n)).admits ⟨stage, stance⟩ r reply ⟨stage', stance⟩)
    (hplace : Place.At stack key stage' state)
    (hsole : stage' = stage ∨ Outlook.Leads ⟨stage, stance⟩ key)
    (hload : callerLoads n (trace ++ [.acted i r reply]) = stage'.finding?.toList) :
    Sharing stack key n (trace ++ [.acted i r reply]) stage'
      ({ s with state := state }.setTask i (.live stance (next reply))) := by
  obtain ⟨-, hnext, hseats⟩ := h.asks hi
  refine ⟨h.orderly.coordinated_step hs, ?_, hplace, hload, ?_, h.landed_step hs hle⟩
  · intro j task hj
    have hnew : Task.Heeds stack key (i < n) stage' (.live stance (next reply)) :=
      ⟨hnext reply _ hadmits, hseats⟩
    exact h.heeds_set hi hle hsole hnew hj
  · intro finding hfinding
    rw [System.crew_answered _ hi]
    rcases hsole with rfl | ⟨seat, hseat, hkey⟩
    · exact h.led hfinding
    · exact ⟨i, seat, hseat ▸ System.crew_of_task hi, hkey⟩

theorem Sharing.act (h : Sharing stack key n trace stage s) {i : Nat} {stance : Stance}
    {r : CacheRequest ScriptedLoader} {next : r.Reply → CacheProc ScriptedLoader Answer}
    {reply : r.Reply} {state : Place}
    (hs : System.Step s (.acted i r reply)
      ({ s with state := state }.setTask i (.live stance (next reply))))
    (hi : s.tasks[i]? = some (.live stance (Proc.ask r next))) (hr : r.onFlight = false)
    (ha : Place.answers s.state r reply state)
    (hfirst : ∀ finding, (callerLoads n (trace ++ [.acted i r reply])).head? = some finding →
      finding.Storable) :
    ∃ stage', Sharing stack key n (trace ++ [.acted i r reply]) stage'
      ({ s with state := state }.setTask i (.live stance (next reply))) := by
  obtain ⟨hp, -, -⟩ := h.asks hi
  have hquiet (hnone : Event.callerLoad? n (.acted i r reply) = none) :
      callerLoads n (trace ++ [.acted i r reply]) = stage.finding?.toList := by
    rw [callerLoads_snoc, hnone, h.loads]
    exact List.append_nil _
  cases r with
  | layer slot op =>
    obtain ⟨stage', hadmits, hplace, hsole⟩ := h.place.layer hp ha
    have hload := hquiet rfl
    rcases hsole with rfl | ⟨rfl, hl⟩
    · exact ⟨_, h.answered hs hi (Stage.le_refl _) hadmits hplace (.inl rfl) hload⟩
    · rw [← stage.finding_settle] at hload
      exact ⟨_, h.answered hs hi stage.le_settle hadmits hplace (.inr hl) hload⟩
  | load loader =>
    obtain rfl := ha
    by_cases hc : i < n
    · -- the one load of a caller
      obtain ⟨hl, rfl⟩ := hp.2 hc
      have hload : callerLoads n (trace ++ [.acted i (.load loader) reply]) = [reply] := by
        rw [callerLoads_snoc, h.loads]
        simp [Stage.finding?, Event.callerLoad?, hc]
      have hstorable : Finding.Storable reply := hfirst reply (by rw [hload]; rfl)
      have hadmits : (minding stack key (i < n)).admits ⟨.untouched, stance⟩ (.load loader) reply
          ⟨.loaded reply, stance⟩ :=
        ⟨fun _ => ⟨rfl, rfl, hstorable⟩, fun h => absurd hc h⟩
      exact ⟨_, h.answered hs hi trivial hadmits (h.place.later trivial (by simp)) (.inr hl) hload⟩
    · have hadmits : (minding stack key (i < n)).admits ⟨stage, stance⟩ (.load loader) reply
          ⟨stage, stance⟩ :=
        ⟨fun h => absurd h hc, fun _ => .refl key _⟩
      have hload := hquiet (if_neg hc)
      exact ⟨stage, h.answered hs hi (Stage.le_refl _) hadmits h.place (.inl rfl) hload⟩
  | join _ | turn _ | land _ _ | leave _ => cases hr
  | _ =>
    obtain rfl := ha
    exact ⟨stage, h.answered hs hi (Stage.le_refl _) (.refl key _) h.place (.inl rfl) (hquiet rfl)⟩

theorem Sharing.step (h : Sharing stack key n trace stage s) (hs : CalmStep stack key n s e t)
    (hfirst : ∀ finding, (callerLoads n (trace ++ [e])).head? = some finding → finding.Storable) :
    ∃ stage', Sharing stack key n (trace ++ [e]) stage' t := by
  obtain ⟨hs, hcalm, hlasting⟩ := hs
  have hstep := hs
  cases hs with
  | @join i stance key' next hi =>
    obtain ⟨⟨hstance, hjoins⟩, hnext, -⟩ := h.asks hi
    have hkey : (s.guard.join key').1.key = key' := (join_flight ..).1
    refine ⟨stage, h.stay hstep hi rfl rfl rfl
      ⟨hnext _ ⟨stage, _⟩ ⟨⟨hkey, rfl⟩, Stage.le_refl _⟩, ?_⟩ ?_⟩
    · rintro seat heq
      cases heq
      rw [hkey]
      exact hjoins
    · rintro seat rfl
      cases hstance
  | @lead i stance seat next guard hi hturn =>
    obtain ⟨⟨rfl, -⟩, hnext, hseats⟩ := h.asks hi
    have hfree (hkey : seat.key = key) (finding : Finding) : stage ≠ .loaded finding := by
      intro hstage
      obtain ⟨j, seat', hj, hkey'⟩ := h.led hstage
      exact h.coordinated.lead_alone (System.crew_of_task hi) hturn hj (hkey'.trans hkey.symm)
    refine ⟨stage, h.stay hstep hi rfl rfl rfl ⟨hnext none ⟨stage, _⟩ ⟨rfl, Stage.le_refl _, hfree⟩,
      hseats⟩ (by simp [Task.stance])⟩
  | wait hi hturn => exact ⟨stage, h.same_tasks hstep rfl h.place rfl⟩
  | @arrive i stance seat next outcome guard hi hturn =>
    obtain ⟨⟨rfl, -⟩, hnext, hseats⟩ := h.asks hi
    refine ⟨stage, h.stay hstep hi rfl rfl rfl
      ⟨hnext (some outcome) ⟨stage, _⟩ ⟨rfl, Stage.le_refl _, fun hkey => ?_⟩, hseats⟩
      (by simp [Task.stance])⟩
    obtain ⟨b, hb, hf⟩ := h.coordinated.boarded (System.crew_of_task hi) rfl
    exact h.landed (hkey ▸ hb) (hf ▸ (ask_landed hturn).1)
  | @land i stance seat outcome next hi =>
    obtain ⟨⟨rfl, hland⟩, hnext, hseats⟩ := h.asks hi
    refine ⟨stage, h.stay hstep hi rfl rfl rfl ⟨hnext () ⟨stage, _⟩ ⟨rfl, Stage.le_refl _⟩, hseats⟩ ?_⟩
    intro seat' heq
    cases heq
    by_cases hkey : seat.key = key
    · obtain ⟨finding, rfl, -⟩ := hland hkey
      exact .inr (.inr (by simp))
    · exact .inr (.inl hkey)
  | @leave i stance seat next hi =>
    obtain ⟨⟨rfl, -⟩, hnext, -⟩ := h.asks hi
    refine ⟨stage, h.stay hstep hi rfl rfl rfl ⟨hnext () ⟨stage, _⟩ ⟨rfl, Stage.le_refl _⟩, ?_⟩ ?_⟩
    · simp [Stance.seat?]
    · simp [Task.stance]
  | act hi hr ha => exact h.act hstep hi hr ha hfirst
  | @cancel i stance r next hi _ =>
    obtain ⟨-, -, hseats⟩ := h.asks hi
    have hother : ¬i < n := hcalm rfl
    refine ⟨stage, h.stay hstep hi rfl rfl rfl hother fun seat hseat => .inr (.inl fun hkey => ?_)⟩
    exact hother ((hseats seat (by rw [show stance = _ from hseat]; rfl)).mp hkey)
  | drift hd =>
    exact ⟨stage, h.same_tasks hstep rfl (h.place.drift hd fun slot => hlasting rfl) rfl⟩

theorem Sharing.run (h : Sharing stack key n [] stage s) (hrun : Run (CalmStep stack key n) s trace t)
    (hfirst : ∀ finding, (callerLoads n trace).head? = some finding → finding.Storable) :
    ∃ stage', Sharing stack key n trace stage' t := by
  induction hrun with
  | refl => exact ⟨stage, h⟩
  | @snoc trace mid e t _ hs ih =>
    obtain ⟨mid', hmid⟩ := ih fun finding hf => hfirst finding (by
      rw [callerLoads_snoc, List.head?_append, hf]
      rfl)
    exact hmid.step hs hfirst

end

-- ---------------------------------------------------------------------------
-- Runs
-- ---------------------------------------------------------------------------

variable {calls : List (ScriptedLoader × RememberOptions)} {others : List Client} {place : Place}
  {guard : Flights} {k : String}

theorem sharing_start (htiers : stack.tiers ≠ [])
    (hpolicy : ∀ call ∈ calls, call.2.policy.getD stack.settings.policy = .singleFlight)
    (hspares : ∀ client ∈ others, Spares k client.work) (hclock : place.now < Instant.horizon)
    (habsent : ∀ tier ∈ stack.tiers, place.shown tier.slot (stack.fullKey k) = none)
    (hidle : Idle guard) :
    Sharing stack (stack.fullKey k) calls.length [] .untouched
      (System.start place (programs stack k calls others) guard) := by
  have hplace : place.At stack (stack.fullKey k) .untouched :=
    ⟨hclock, fun ht => ⟨fun hp => by simp [habsent _ ht] at hp, by simp⟩⟩
  refine ⟨System.coordinated_start _ _ hidle, ?_, hplace, rfl, by simp, fun hb => ?_⟩
  · intro i task hi
    simp only [System.start, List.getElem?_map, Option.map_eq_some_iff] at hi
    obtain ⟨p, hp, rfl⟩ := hi
    refine ⟨?_, by simp [Stance.seat?]⟩
    simp only [programs, List.getElem?_append, List.length_map, List.getElem?_map] at hp
    split at hp
    · rename_i hcaller
      obtain ⟨call, hcall, rfl⟩ := Option.map_eq_some_iff.mp hp
      exact finished_caller rfl hcaller htiers call.1 (hpolicy call (List.mem_of_getElem? hcall))
    · rename_i hother
      obtain ⟨client, hclient, rfl⟩ := Option.map_eq_some_iff.mp hp
      exact finished_client rfl hother htiers (hspares client (List.mem_of_getElem? hclient))
  · have hnone := hidle.empty (stack.fullKey k)
    cases hnone.symm.trans hb

/-- Callers for a key under single flight, of whom none is dropped, start with the key absent
from all layers, and nobody else writes or deletes it. The loader that is called first finds
that there is nothing, or a value short enough for a record. When all callers have returned,
no other loader has been called, and all return what it has found. -/
theorem single_flight_calls_one_loader (htiers : stack.tiers ≠ []) (hcalls : calls ≠ [])
    (hpolicy : ∀ call ∈ calls, call.2.policy.getD stack.settings.policy = .singleFlight)
    (hspares : ∀ client ∈ others, Spares k client.work) (hclock : place.now < Instant.horizon)
    (habsent : ∀ tier ∈ stack.tiers, place.shown tier.slot (stack.fullKey k) = none)
    (hidle : Idle guard) {trace : List (Event ScriptedLoader)}
    {s : System (inPlace ScriptedLoader) Answer}
    (hrun : Run (CalmStep stack (stack.fullKey k) calls.length)
      (System.start place (programs stack k calls others) guard) trace s)
    (hreturned : ∀ i < calls.length, (s.tasks[i]?.bind Task.result?).isSome)
    (hmissing : ∀ e, (callerLoads calls.length trace).head? = some (.error e) → e.isNotFound = true)
    (hshort : ∀ loaded, (callerLoads calls.length trace).head? = some (.ok loaded) →
      loaded.value.length < 2 ^ 32) :
    ∃ finding : Finding, callerLoads calls.length trace = [finding] ∧
      ∀ i < calls.length, s.tasks[i]?.bind Task.result? = some (.ofOutcome finding.outcome) := by
  have hfirst : ∀ finding, (callerLoads calls.length trace).head? = some finding →
      finding.Storable
    | .error e, h => hmissing e h
    | .ok loaded, h => hshort loaded h
  obtain ⟨stage, h⟩ :=
    (sharing_start htiers hpolicy hspares hclock habsent hidle).run hrun hfirst
  have hresult {i : Nat} (hi : i < calls.length) : ∃ finding : Finding,
      stage.finding? = some finding ∧
      s.tasks[i]?.bind Task.result? = some (.ofOutcome finding.outcome) := by
    have hsome := hreturned i hi
    cases htask : s.tasks[i]? with
    | none => simp [htask] at hsome
    | some task =>
      have hheeds := h.heeds htask
      cases task with
      | dropped => exact absurd hi hheeds
      | live stance p =>
        cases p with
        | ask r next => simp [htask, Task.result?] at hsome
        | done answer =>
          obtain ⟨finding, hfinding, rfl⟩ := hheeds.1.2 hi
          exact ⟨finding, hfinding, rfl⟩
  obtain ⟨finding, hfinding, -⟩ := hresult (List.length_pos_iff.mpr hcalls)
  refine ⟨finding, by simp [h.loads, hfinding], fun i hi => ?_⟩
  obtain ⟨finding', hfinding', hanswer⟩ := hresult hi
  rw [hfinding] at hfinding'
  cases hfinding'
  exact hanswer

def oneMemory : Stack where
  settings :=
    { keyPrefix := "", defaultTtl := .ofSeconds 60, negativeTtl := .ofSeconds 30,
      jitter := .infinity true, policy := .singleFlight }
  tiers := [⟨0, "L1", true⟩]

def emptyMemory : Place where
  now := 0
  storage :=
    { backing := fun _ => .memory 0
      memories := fun _ => { limit := 0 }
      stores := fun _ => { batched := false, rules := [] } }

def rememberTwice : List (ScriptedLoader × RememberOptions) :=
  [({ key := "k" }, {}), ({ key := "k" }, {})]

/-- Both callers miss the key; the second waits while the first loads. -/
theorem single_flight_calls_one_loader_two :
    ∃ (s : System (inPlace ScriptedLoader) Answer) (trace : List (Event ScriptedLoader)),
      Run (CalmStep oneMemory "k" 2)
        (System.start emptyMemory (programs oneMemory "k" rememberTwice [])) trace s ∧
      callerLoads 2 trace = [.ok ⟨[7], none⟩] ∧
      ∀ i < 2, s.tasks[i]?.bind Task.result? = some (.value [7]) := by
  have hstart : Run (CalmStep oneMemory "k" 2)
    (System.start emptyMemory (programs oneMemory "k" rememberTwice [])) [] _ := .refl
  -- both miss the key
  have hmissed := hstart
    |>.snoc (.act (i := 0) _ rfl rfl ⟨rfl, rfl⟩)
    |>.snoc (.act (i := 0) () rfl rfl rfl)
    |>.snoc (.act (i := 0) () rfl rfl rfl)
    |>.snoc (.act (i := 1) _ rfl rfl ⟨rfl, rfl⟩)
    |>.snoc (.act (i := 1) () rfl rfl rfl)
    |>.snoc (.act (i := 1) () rfl rfl rfl)
  -- the first leads, reads the key again and loads it
  have hloaded := hmissed
    |>.snoc (.of_isCalm (.join (i := 0) rfl) rfl)
    |>.snoc (.of_isCalm (.lead (i := 0) rfl rfl) rfl)
    |>.snoc (.of_isCalm (.join (i := 1) rfl) rfl)
    |>.snoc (.of_isCalm (.wait (i := 1) rfl rfl) rfl)
    |>.snoc (.act (i := 0) _ rfl rfl ⟨rfl, rfl⟩)
    |>.snoc (.act (i := 0) () rfl rfl rfl)
    |>.snoc (.act (i := 0) () rfl rfl rfl)
    |>.snoc (.act (i := 0) () rfl rfl rfl)
    |>.snoc (.act (i := 0) (Except.ok ⟨[7], none⟩ : Finding) rfl rfl rfl)
  have hrun := hloaded
    |>.snoc (.act (i := 0) _ rfl rfl ⟨rfl, rfl⟩)
    |>.snoc (.of_isCalm (.land (i := 0) rfl) rfl)
    |>.snoc (.of_isCalm (.leave (i := 0) rfl) rfl)
    |>.snoc (.of_isCalm (.arrive (i := 1) rfl rfl) rfl)
    |>.snoc (.of_isCalm (.leave (i := 1) rfl) rfl)
  have hpolicy : ∀ call ∈ rememberTwice,
      call.2.policy.getD oneMemory.settings.policy = .singleFlight := by decide
  have hothers : ∀ client ∈ ([] : List Client), Spares "k" client.work := by simp
  have habsent : ∀ tier ∈ oneMemory.tiers, emptyMemory.shown tier.slot (oneMemory.fullKey "k") = none :=
    fun _ _ => rfl
  have hclock : emptyMemory.now < Instant.horizon := by decide
  obtain ⟨finding, hloads, hresults⟩ := single_flight_calls_one_loader (by decide) (by decide)
    hpolicy hothers hclock habsent idle_new hrun (by decide) (fun e he => by cases he)
    (fun loaded hl => by
      cases hl
      decide)
  cases hloads
  exact ⟨_, _, hrun, rfl, hresults⟩

-- ---------------------------------------------------------------------------
-- Values too long for a record
-- ---------------------------------------------------------------------------

/-- A task that meets what it cannot read goes on as if there were nothing. -/
theorem Run.misread {trace : List (Event ScriptedLoader)}
    {start s : System (inPlace ScriptedLoader) Answer} {i slot : Nat} {stance : Stance}
    {next : Except CacheError (Option Entry) → CacheProc ScriptedLoader Answer} {payload : Bytes}
    (note : Notice) (h : Run (CalmStep stack key n) start trace s)
    (hi : s.tasks[i]? = some (.live stance (Proc.ask (CacheRequest.layer slot (.get k)) next)))
    (hshown : s.state.shown slot k = some payload)
    (hnext : ∀ entry : Entry, entry.payload = payload →
      next (.ok (some entry)) = Proc.ask (CacheRequest.notice note) fun _ => next (.ok none)) :
    ∃ entry, Run (CalmStep stack key n) start
      (trace ++ [.acted i (.layer slot (.get k)) (.ok (some entry))] ++ [.acted i (.notice note) ()])
      ({ s with state := { s.state with
        storage := (s.state.storage.perform s.state.now slot (.get k)).2 } }.setTask i
          (.live stance (next (.ok none)))) := by
  obtain ⟨⟨found, hreply, hfound⟩, -⟩ := s.state.storage.get_spec s.state.now slot k
  obtain ⟨entry, rfl, hentry⟩ := Option.map_eq_some_iff.mp (hfound.trans hshown)
  have hlt : i < s.tasks.length := (List.getElem?_eq_some_iff.mp hi).1
  have hread := h.snoc (.act (i := i) (Except.ok (some entry)) hi rfl ⟨hreply.symm, rfl⟩)
  rw [hnext entry hentry] at hread
  have hnoticed := hread.snoc (.act (i := i) () (List.getElem?_set_self hlt) rfl rfl)
  refine ⟨entry, ?_⟩
  simpa only [System.setTask, List.set_set] using hnoticed

/-- The first of two callers has loaded a value, written it and returned. -/
def firstServed (value : Bytes) (storage : Storage) : System (inPlace ScriptedLoader) Answer where
  guard := { flights := [{ outcome := some (.ok value) }], tickets := 1 }
  state := { now := 0, storage }
  tasks := [.live .outside (Proc.done (.value value)),
    .live .outside (Session.cacheWork (.stacked oneMemory) (.remember "k" { key := "k" } {}))]

theorem run_firstServed (value : Bytes) :
    ∃ (storage : Storage) (trace : List (Event ScriptedLoader)),
      Run (CalmStep oneMemory "k" 2)
        (System.start emptyMemory (programs oneMemory "k" rememberTwice [])) trace
        (firstServed value storage) ∧
      callerLoads 2 trace = [.ok ⟨value, none⟩] ∧
      (Place.mk 0 storage).shown 0 "k" = some (Record.encode value) := by
  have hstart : Run (CalmStep oneMemory "k" 2)
    (System.start emptyMemory (programs oneMemory "k" rememberTwice [])) [] _ := .refl
  -- it misses the key and leads
  have hled := hstart
    |>.snoc (.act (i := 0) _ rfl rfl ⟨rfl, rfl⟩)
    |>.snoc (.act (i := 0) () rfl rfl rfl)
    |>.snoc (.act (i := 0) () rfl rfl rfl)
    |>.snoc (.of_isCalm (.join (i := 0) rfl) rfl)
    |>.snoc (.of_isCalm (.lead (i := 0) rfl rfl) rfl)
  have hloaded := hled
    |>.snoc (.act (i := 0) _ rfl rfl ⟨rfl, rfl⟩)
    |>.snoc (.act (i := 0) () rfl rfl rfl)
    |>.snoc (.act (i := 0) () rfl rfl rfl)
    |>.snoc (.act (i := 0) () rfl rfl rfl)
    |>.snoc (.act (i := 0) (Except.ok ⟨value, none⟩ : Finding) rfl rfl rfl)
  have hreturned := hloaded
    |>.snoc (.act (i := 0) _ rfl rfl ⟨rfl, rfl⟩)
    |>.snoc (.of_isCalm (.land (i := 0) rfl) rfl)
    |>.snoc (.of_isCalm (.leave (i := 0) rfl) rfl)
  have hshown {storage : Storage} {ttl : Duration} :
      (Place.mk 0 (storage.perform 0 0 (.set "k" (Record.encode value) ttl)).2).shown 0 "k" =
        some (Record.encode value) :=
    ((storage.set_spec 0 0 "k" _ ttl).2.1 0 (Nat.le_refl _) (by decide)).trans (shownFor_now ..)
  exact ⟨_, _, hreturned, rfl, hshown⟩

theorem run_twice_loaded {value : Bytes} (hlong : 2 ^ 32 ≤ value.length) :
    ∃ (s : System (inPlace ScriptedLoader) Answer) (trace : List (Event ScriptedLoader)),
      Run (CalmStep oneMemory "k" 2)
        (System.start emptyMemory (programs oneMemory "k" rememberTwice [])) trace s ∧
      callerLoads 2 trace = [.ok ⟨value, none⟩, .ok ⟨value, none⟩] ∧
      ∀ i < 2, s.tasks[i]?.bind Task.result? = some (.value value) := by
  have hdecode : Record.decode (Record.encode value) = none := Record.decode_encode_long hlong
  obtain ⟨storage, trace, hserved, hloads, hshown⟩ := run_firstServed value
  have hkept : (Place.mk 0 (storage.perform 0 0 (.get "k")).2).shown 0 "k" = some (Record.encode value) :=
    ((storage.get_spec 0 0 "k").2 0 "k" 0 (Nat.le_refl _) (by decide)).trans hshown
  -- the second meets the payload before it joins a flight, and again when it leads
  obtain ⟨_, hmissed⟩ := hserved.misread (i := 1) (.undecodable "k" "L1") rfl hshown (by
    intro entry hentry
    simp only [Proc.bind, hentry, hdecode]
    rfl)
  have hled := hmissed
    |>.snoc (.act (i := 1) () rfl rfl rfl)
    |>.snoc (.act (i := 1) () rfl rfl rfl)
    |>.snoc (.of_isCalm (.join (i := 1) rfl) rfl)
    |>.snoc (.of_isCalm (.lead (i := 1) rfl rfl) rfl)
  obtain ⟨_, hagain⟩ := hled.misread (i := 1) (.undecodable "k" "L1") rfl hkept (by
    intro entry hentry
    simp only [Proc.bind, hentry, hdecode]
    rfl)
  have hloaded := hagain
    |>.snoc (.act (i := 1) () rfl rfl rfl)
    |>.snoc (.act (i := 1) () rfl rfl rfl)
    |>.snoc (.act (i := 1) () rfl rfl rfl)
    |>.snoc (.act (i := 1) (Except.ok ⟨value, none⟩ : Finding) rfl rfl rfl)
  have hreturned := hloaded
    |>.snoc (.act (i := 1) (Except.ok ()) rfl rfl ⟨(Storage.set_spec ..).1.symm, rfl⟩)
    |>.snoc (.of_isCalm (.land (i := 1) rfl) rfl)
    |>.snoc (.of_isCalm (.leave (i := 1) rfl) rfl)
  refine ⟨_, _, hreturned, ?_, ?_⟩
  · simp only [callerLoads_snoc, hloads]
    rfl
  · intro i hi
    interval_cases i <;> rfl

/-- A value of 2³² bytes is no record once it is written, so the second caller loads it again. -/
theorem long_value_loaded_twice :
    ∃ (s : System (inPlace ScriptedLoader) Answer) (trace : List (Event ScriptedLoader)),
      Run (CalmStep oneMemory "k" 2)
        (System.start emptyMemory (programs oneMemory "k" rememberTwice [])) trace s ∧
      callerLoads 2 trace =
        [.ok ⟨List.replicate (2 ^ 32) 0, none⟩, .ok ⟨List.replicate (2 ^ 32) 0, none⟩] ∧
      ∀ i < 2, (s.tasks[i]?.bind Task.result?).isSome := by
  have hlong : 2 ^ 32 ≤ (List.replicate (2 ^ 32) (0 : UInt8)).length :=
    Nat.le_of_eq List.length_replicate.symm
  generalize List.replicate (2 ^ 32) (0 : UInt8) = value at hlong ⊢
  obtain ⟨s, trace, hrun, hloads, hresults⟩ := run_twice_loaded hlong
  exact ⟨s, trace, hrun, hloads, fun i hi => by rw [hresults i hi]; rfl⟩

end StackedCache.Concurrency

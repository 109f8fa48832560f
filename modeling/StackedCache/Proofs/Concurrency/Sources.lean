import StackedCache.Proofs.Concurrency.Faults
import StackedCache.Proofs.Concurrency.Ledgers
import StackedCache.Proofs.Concurrency.Outcomes
import StackedCache.Proofs.Concurrency.SingleFlight

/-!
# No content out of thin air

Calls use a cache at the same time, over layers that may fail, and may be
dropped. What the layers hold and the flights have landed under a key has come
from a call that was given it or from a loader, and so has what the tasks know;
each step keeps that, and so what a call answers has such a source as well.
-/

namespace StackedCache.Concurrency

open Simulation

/-- The event is a step of a task whose call is given the content of the key, or learns it there. -/
inductive Brings (works : List Work) (e : Event ScriptedLoader) (key : String)
    (content : Option Bytes) : Prop
  | given {i : Nat} {work : Work} (he : e.task? = some i) (hwork : works[i]? = some work)
      (h : Given work key content)
  | learned {i : Nat} {r : CacheRequest ScriptedLoader} {reply : r.Reply} {work : Work}
      (he : e = .acted i r reply) (hwork : works[i]? = some work)
      (h : Learned work ⟨r, reply⟩ key content)

def broughtBy (works : List Work) (trace : List (Event ScriptedLoader)) : Knowledge :=
  fun key content => ∃ e ∈ trace, Brings works e key content

def knownTo (works : List Work) (trace : List (Event ScriptedLoader)) (work : Work) : Knowledge :=
  fun key content => Given work key content ∨ broughtBy works trace key content

def Task.Sources (stack : Stack) (works : List Work) (trace : List (Event ScriptedLoader)) (i : Nat) :
    Task ScriptedLoader Answer → Prop
  | .live stance p => ∃ work, works[i]? = some work ∧
    p.Keeps (sourcing stack work) (AnswersKnown work) ⟨knownTo works trace work, stance⟩
  | .dropped => True

structure Sourced (stack : Stack) (works : List Work) (trace : List (Event ScriptedLoader))
    (s : System (inUnreliablePlace ScriptedLoader) Answer) : Prop where
  coordinated : Coordinated s.guard s.crew
  tasks {i : Nat} {task : Task ScriptedLoader Answer} : s.tasks[i]? = some task →
    task.Sources stack works trace i
  clock : s.state.now < Instant.horizon
  held {tier : Tier} {key : String} {item : Item} : tier ∈ stack.tiers →
    s.state.storage.Holds tier.slot (stack.fullKey key) item →
    Vouched (broughtBy works trace) key item.payload
  landed {key : String} {b : Boarding} {value : Bytes} :
    s.guard.boarding.get? (stack.fullKey key) = some b →
    (s.guard.flight b.flight).outcome = some (.ok value) → broughtBy works trace key (some value)

section
variable {stack : Stack} {works : List Work} {trace : List (Event ScriptedLoader)}
  {s t : System (inUnreliablePlace ScriptedLoader) Answer} {e : Event ScriptedLoader} {i : Nat}
  {work : Work} {stance : Stance} {r : CacheRequest ScriptedLoader}

theorem broughtBy_snoc {key : String} {content : Option Bytes}
    (h : broughtBy works trace key content) : broughtBy works (trace ++ [e]) key content :=
  h.imp fun _ => And.imp_left (List.mem_append_left _)

theorem broughtBy_now {key : String} {content : Option Bytes} (h : Brings works e key content) :
    broughtBy works (trace ++ [e]) key content :=
  ⟨e, List.mem_append_right _ List.mem_cons_self, h⟩

theorem knownTo_brought (he : e.task? = some i) (hwork : works[i]? = some work) {key : String}
    {content : Option Bytes} (h : knownTo works trace work key content) :
    broughtBy works (trace ++ [e]) key content :=
  h.elim (fun hgiven => broughtBy_now (.given he hwork hgiven)) broughtBy_snoc

theorem knownTo_snoc {key : String} {content : Option Bytes}
    (h : knownTo works trace work key content) : knownTo works (trace ++ [e]) work key content :=
  h.imp_right broughtBy_snoc

theorem Task.Sources.permitted {task : Task ScriptedLoader Answer}
    (h : task.Sources stack works trace i) : task.Permitted := by
  cases task with
  | dropped => trivial
  | live stance p =>
    obtain ⟨work, -, hkeeps⟩ := h
    cases p with
    | done answer => exact hkeeps.1
    | ask r next => exact hkeeps.1.1

theorem Task.Sources.snoc {task : Task ScriptedLoader Answer}
    (h : task.Sources stack works trace i) : task.Sources stack works (trace ++ [e]) i := by
  cases task with
  | dropped => trivial
  | live stance p =>
    obtain ⟨work, hwork, hkeeps⟩ := h
    exact ⟨work, hwork, keeps_knowing hkeeps fun _ _ => knownTo_snoc⟩

theorem Sourced.orderly (h : Sourced stack works trace s) : s.Orderly :=
  ⟨h.coordinated, fun hi => (h.tasks hi).permitted⟩

theorem Sourced.asks (h : Sourced stack works trace s) {next : r.Reply → CacheProc ScriptedLoader Answer}
    (hi : s.tasks[i]? = some (.live stance (Proc.ask r next))) :
    ∃ work, works[i]? = some work ∧ flightProtocol.permits stance r ∧
      Warranted stack (knownTo works trace work) r ∧
      ∀ e reply stance', flightProtocol.admits stance r reply stance' →
        Heard stack work (broughtBy works (trace ++ [e])) ⟨r, reply⟩ →
        Task.Sources stack works (trace ++ [e]) i (.live stance' (next reply)) := by
  obtain ⟨work, hwork, ⟨hprotocol, hwarranted⟩, hnext⟩ := h.tasks hi
  refine ⟨work, hwork, hprotocol, hwarranted, fun e reply stance' hadmits hheard => ?_⟩
  refine ⟨work, hwork, hnext reply ⟨_, stance'⟩ ⟨hadmits, fun _ _ => knownTo_snoc, ?_⟩⟩
  exact hheard.mono fun _ _ => .inr

-- ---------------------------------------------------------------------------
-- Calls on the surroundings
-- ---------------------------------------------------------------------------

theorem Sourced.held_after (h : Sourced stack works trace s) (hwork : works[i]? = some work)
    (hwarranted : Warranted stack (knownTo works trace work) r) {reply : r.Reply} {after : Place}
    (ha : s.state.tolerates r reply after) {tier : Tier} {key : String} {item : Item}
    (htier : tier ∈ stack.tiers) (hitem : after.storage.Holds tier.slot (stack.fullKey key) item) :
    Vouched (broughtBy works (trace ++ [.acted i r reply])) key item.payload := by
  rcases Place.tolerates_holds ha hitem with hbefore | ⟨slot, op, payload, ttl, rfl, -, hputs, hmakes⟩
  · exact (h.held htier hbefore).mono fun _ _ => broughtBy_snoc
  · rw [hmakes.payload_eq]
    exact (hwarranted key payload ttl hputs).mono fun _ _ => knownTo_brought rfl hwork

theorem Sourced.heard (h : Sourced stack works trace s) (hwork : works[i]? = some work)
    (hr : r.onFlight = false) {reply : r.Reply} {after : Place} (ha : s.state.tolerates r reply after) :
    Heard stack work (broughtBy works (trace ++ [.acted i r reply])) ⟨r, reply⟩ := by
  refine ⟨fun hlearned => broughtBy_now (.learned rfl hwork hlearned), fun htier hfetches => ?_, ?_⟩
  · obtain ⟨item, hitem, rfl, -⟩ := visible_held (Place.tolerates_fetches h.clock ha hfetches)
    exact (h.held htier hitem).mono fun _ _ => broughtBy_snoc
  · rintro seat key value ⟨⟩
    cases hr

theorem Sourced.heard_landed (h : Sourced stack works trace s) {seat : Seat} {outcome : Outcome}
    (hcrew : s.crew[i]? = some (.waiting seat))
    (houtcome : (s.guard.flight seat.flight).outcome = some outcome) :
    Heard stack work (broughtBy works (trace ++ [e])) ⟨.turn seat, some outcome⟩ := by
  refine heard_onFlight rfl ?_
  rintro _ key value ⟨⟩ hkey
  obtain ⟨b, hb, hflight⟩ := h.coordinated.boarded hcrew rfl
  exact broughtBy_snoc (h.landed (hkey ▸ hb) (hflight ▸ houtcome))

-- ---------------------------------------------------------------------------
-- Steps
-- ---------------------------------------------------------------------------

theorem Sourced.onward (h : Sourced stack works trace s) (hs : System.Step s e t)
    (hclock : t.state.now < Instant.horizon)
    (hheld : ∀ {tier : Tier} {key : String} {item : Item}, tier ∈ stack.tiers →
      t.state.storage.Holds tier.slot (stack.fullKey key) item →
      Vouched (broughtBy works (trace ++ [e])) key item.payload)
    (htasks : ∀ {j : Nat} {task : Task ScriptedLoader Answer}, t.tasks[j]? = some task →
      task.Sources stack works (trace ++ [e]) j) : Sourced stack works (trace ++ [e]) t := by
  refine ⟨h.orderly.coordinated_step hs, htasks, hclock, hheld, fun {key b value} hb ho => ?_⟩
  refine h.orderly.outcome_step
    (P := fun outcome => ∀ value, outcome = .ok value → broughtBy works (trace ++ [e]) key (some value))
    hs ?_ ?_ hb ho value rfl
  · rintro b outcome hb ho value rfl
    exact broughtBy_snoc (h.landed hb ho)
  · rintro i stance seat outcome next rfl hi hkey value rfl
    obtain ⟨work, hwork, -, hwarranted, -⟩ := h.asks hi
    exact knownTo_brought rfl hwork (hwarranted key value hkey rfl)

theorem Sourced.stay (h : Sourced stack works trace s) (hs : System.Step s e t)
    {new : Task ScriptedLoader Answer} (htasks : t.tasks = s.tasks.set i new)
    (hstate : t.state = s.state) (hnew : new.Sources stack works (trace ++ [e]) i) :
    Sourced stack works (trace ++ [e]) t := by
  refine h.onward hs (hstate ▸ h.clock) (fun htier hitem => ?_) fun {j task} hj => ?_
  · exact (h.held htier (hstate ▸ hitem)).mono fun _ _ => broughtBy_snoc
  · rw [htasks] at hj
    exact System.forall_setTask (s := s)
      (P := fun j task => task.Sources stack works (trace ++ [e]) j)
      (fun hj => (h.tasks hj).snoc) hnew hj

theorem Sourced.untold (h : Sourced stack works trace s) (hs : System.Step s e t)
    {next : r.Reply → CacheProc ScriptedLoader Answer}
    (hi : s.tasks[i]? = some (.live stance (Proc.ask r next))) (hr : r.onFlight = true)
    {reply : r.Reply} {stance' : Stance} (hadmits : flightProtocol.admits stance r reply stance')
    (hnone : ∀ seat value, (⟨r, reply⟩ : CacheExchange) ≠ ⟨.turn seat, some (.ok value)⟩)
    (htasks : t.tasks = s.tasks.set i (.live stance' (next reply))) (hstate : t.state = s.state) :
    Sourced stack works (trace ++ [e]) t := by
  obtain ⟨work, -, -, -, hnext⟩ := h.asks hi
  refine h.stay hs htasks hstate (hnext e reply stance' hadmits ?_)
  exact heard_onFlight hr fun he => absurd he (hnone _ _)

theorem Sourced.step (h : Sourced stack works trace s) (hs : s.LooseStep e t) :
    Sourced stack works (trace ++ [e]) t := by
  have hsame {j : Nat} {task : Task ScriptedLoader Answer} (hj : s.tasks[j]? = some task) :
      task.Sources stack works (trace ++ [e]) j := (h.tasks hj).snoc
  cases hs with
  | @effect i stance slot op next reply after hi ha =>
    obtain ⟨work, hwork, -, hwarranted, -⟩ := h.asks hi
    have ha : s.state.tolerates (.layer slot op : CacheRequest ScriptedLoader) reply after := ha
    refine ⟨h.coordinated, hsame, Place.tolerates_now ha ▸ h.clock, ?_, ?_⟩
    · exact fun htier hitem => h.held_after hwork hwarranted ha htier hitem
    · exact fun hb ho => broughtBy_snoc (h.landed hb ho)
  | step hs =>
    have hstep := hs
    cases hs with
    | join hi => exact h.untold hstep hi rfl ⟨(join_flight ..).1, rfl⟩ (by simp) rfl rfl
    | @lead i stance seat next guard hi hturn =>
      have hadmits : flightProtocol.admits stance (.turn seat : CacheRequest ScriptedLoader) none
        (.leading seat) := rfl
      exact h.untold hstep hi rfl hadmits (by simp) rfl rfl
    | wait hi hturn =>
      refine h.onward hstep h.clock (fun htier hitem => ?_) hsame
      exact (h.held htier hitem).mono fun _ _ => broughtBy_snoc
    | @arrive i stance seat next outcome guard hi hturn =>
      obtain ⟨work, hwork, rfl, -, hnext⟩ := h.asks hi
      refine h.stay hstep rfl rfl (hnext _ (some outcome) _ rfl ?_)
      exact h.heard_landed (System.crew_of_task hi) (ask_landed hturn).1
    | land hi => exact h.untold hstep hi rfl rfl (by simp) rfl rfl
    | leave hi => exact h.untold hstep hi rfl rfl (by simp) rfl rfl
    | @act i stance r next reply after hi hr ha =>
      obtain ⟨work, hwork, -, hwarranted, hnext⟩ := h.asks hi
      refine h.onward hstep (Place.tolerates_now ha ▸ h.clock) ?_ fun {j task} hj => ?_
      · exact fun htier hitem => h.held_after hwork hwarranted ha htier hitem
      · refine System.forall_setTask (P := fun j task =>
          Task.Sources stack works (trace ++ [.acted i r reply]) j task) hsame ?_ hj
        exact hnext _ reply stance ((admits_own hr).mpr rfl) (h.heard hwork hr ha)
    | cancel hi _ => exact h.stay hstep rfl rfl trivial
    | drift hd =>
      refine h.onward hstep (Place.strays_clock hd h.clock).2 (fun htier hitem => ?_) hsame
      exact (h.held htier (Place.strays_holds hd hitem)).mono fun _ _ => broughtBy_snoc

theorem Sourced.run (h : Sourced stack works [] s) (hrun : Run System.LooseStep s trace t) :
    Sourced stack works trace t := by
  induction hrun with
  | refl => exact h
  | snoc _ hs ih => exact ih.step hs

end

-- ---------------------------------------------------------------------------
-- Runs
-- ---------------------------------------------------------------------------

/-- The programs of calls, whose batch calls reach some of the slots key by key. -/
def programsOf (stack : Stack) (each : Nat → Bool) (works : List Work) :
    List (CacheProc ScriptedLoader Answer) :=
  works.map fun work => (Session.cacheWork (.stacked stack) work).translate (slotwise each)

section
variable {stack : Stack} {each : Nat → Bool} {works : List Work} {place : Place} {guard : Flights}
  {trace : List (Event ScriptedLoader)} {s : System (inUnreliablePlace ScriptedLoader) Answer}

theorem sourced_start (hclock : place.now < Instant.horizon)
    (hempty : ∀ tier ∈ stack.tiers, ∀ key item,
      ¬place.storage.Holds tier.slot (stack.fullKey key) item) (hidle : Idle guard) :
    Sourced stack works [] (System.start place (programsOf stack each works) guard) := by
  refine ⟨System.coordinated_start _ _ hidle, fun {i task} hi => ?_, hclock, ?_, ?_⟩
  · simp only [System.start, programsOf, List.map_map, List.getElem?_map,
      Option.map_eq_some_iff] at hi
    obtain ⟨work, hwork, rfl⟩ := hi
    exact ⟨work, hwork, (learns_sourcing stack work).keeps_slotwise (sources_work stack fun _ _ => .inl) each⟩
  · exact fun htier hitem => absurd hitem (hempty _ htier _ _)
  · intro key b value hb
    have hnone := hidle.empty (stack.fullKey key)
    cases hnone.symm.trans hb

/-- Calls use a cache at the same time, whose layers have nothing of its own at the beginning. What
one of them answers for a key has been given for that key before, or a loader has been asked for
the key and has told it. -/
theorem answers_have_sources (hclock : place.now < Instant.horizon)
    (hempty : ∀ tier ∈ stack.tiers, ∀ key item,
      ¬place.storage.Holds tier.slot (stack.fullKey key) item) (hidle : Idle guard)
    (hrun : Run System.LooseStep (System.start place (programsOf stack each works) guard) trace s)
    {i : Nat} {work : Work} {answer : Answer} (hwork : works[i]? = some work)
    (hresult : s.tasks[i]?.bind Task.result? = some answer) {key : String} {content : Option Bytes}
    (htells : Tells work answer key content) : ∃ e ∈ trace, Brings works e key content := by
  obtain ⟨task, hi, hresult⟩ := Option.bind_eq_some_iff.mp hresult
  have htask := ((sourced_start hclock hempty hidle).run hrun).tasks hi
  cases task with
  | dropped => cases hresult
  | live stance p =>
    cases p with
    | ask r next => cases hresult
    | done a =>
      cases hresult
      obtain ⟨work', hwork', -, hknown⟩ := htask
      cases hwork.symm.trans hwork'
      rcases hknown key content htells with hgiven | hbrought
      · -- a call that is given something tells nothing
        cases hgiven <;> cases htells
      · exact hbrought

end

def setAndGet : List Work := [.set "k" [7] .zero, .get "k"]

def setAndGetBegun : System (inUnreliablePlace ScriptedLoader) Answer :=
  .start emptyMemory (programsOf oneMemory (fun _ => false) setAndGet)

theorem answers_have_sources_dropped :
    ∃ (s : System (inUnreliablePlace ScriptedLoader) Answer) (trace : List (Event ScriptedLoader)),
      Run System.LooseStep setAndGetBegun trace s ∧
      s.tasks[0]?.map Task.isOver = some true ∧
      s.tasks[1]?.bind Task.result? = some (.lookup (.hit [7])) ∧
      ∃ e ∈ trace, Brings setAndGet e "k" (some [7]) := by
  have hstart : Run System.LooseStep setAndGetBegun [] _ := .refl
  have hdropped := hstart
    |>.snoc (.effect (i := 0) rfl (.inl ⟨rfl, rfl⟩))
    |>.snoc (.step (.cancel (i := 0) rfl rfl))
  have hrun := hdropped
    |>.snoc (.act (i := 1) _ rfl rfl (.inl ⟨⟨none, rfl⟩, rfl⟩))
    |>.snoc (.act (i := 1) () rfl rfl rfl)
    |>.snoc (.act (i := 1) () rfl rfl rfl)
  have hclock : emptyMemory.now < Instant.horizon := by decide
  have hempty : ∀ tier ∈ oneMemory.tiers, ∀ key item,
      ¬emptyMemory.storage.Holds tier.slot (oneMemory.fullKey key) item := by
    rintro tier - key item ⟨⟩
  exact ⟨_, _, hrun, rfl, rfl, answers_have_sources (i := 1) hclock hempty idle_new hrun rfl rfl .hit⟩

end StackedCache.Concurrency

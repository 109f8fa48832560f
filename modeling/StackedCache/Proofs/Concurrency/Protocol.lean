import StackedCache.Proofs.Concurrency.Crew
import StackedCache.Proofs.Discipline

/-!
# The protocol of flights

Programs take the steps of a flight in their order: they join, ask for their
turn, land what they lead, and leave. In a system of such programs the flights
and the tasks' stances fit together in every state, whatever the surroundings
answer and whichever tasks are dropped.
-/

namespace StackedCache.Concurrency

variable {Loader α : Type}

/-- The steps of a flight come in their order, and other requests outside of flights or in
the lead of one. -/
def flightProtocol : Discipline (CacheCalls Loader) Stance where
  permits stance
    | .join _ => stance = .outside
    | .turn seat => stance = .waiting seat
    | .land seat _ => stance = .leading seat
    | .leave seat => stance = .landed seat
    | _ => stance = .outside ∨ ∃ seat, stance = .leading seat
  admits stance
    | .join key, seat, stance' => seat.key = key ∧ stance' = .waiting seat
    | .turn seat, landed, stance' =>
      stance' = if landed.isSome then .landed seat else .leading seat
    | .land seat _, _, stance' => stance' = .landed seat
    | .leave _, _, stance' => stance' = .outside
    | _, _, stance' => stance' = stance

def Follows (stance : Stance) (p : CacheProc Loader α) : Prop :=
  p.Keeps flightProtocol (fun stance _ => stance = .outside) stance

def Task.Follows : Task Loader α → Prop
  | .live stance p => Concurrency.Follows stance p
  | .dropped => True

def Task.Permitted : Task Loader α → Prop
  | .live stance (Proc.ask r _) => flightProtocol.permits stance r
  | .live stance (Proc.done _) => stance = .outside
  | .dropped => True

theorem Task.Follows.permitted {task : Task Loader α} (h : task.Follows) : task.Permitted := by
  cases task with
  | dropped => trivial
  | live stance p =>
    cases p with
    | done a => exact h
    | ask r next => exact h.1

theorem permits_own {stance : Stance} {r : CacheRequest Loader} (hr : r.onFlight = false) :
    flightProtocol.permits stance r ↔ stance = .outside ∨ ∃ seat, stance = .leading seat := by
  cases r <;> first | exact Iff.rfl | cases hr

theorem admits_own {stance stance' : Stance} {r : CacheRequest Loader} {reply : r.Reply}
    (hr : r.onFlight = false) :
    flightProtocol.admits stance r reply stance' ↔ stance' = stance := by
  cases r <;> first | exact Iff.rfl | cases hr

namespace System

variable {env : Surroundings Loader} {s t : System env α} {e : Event Loader}

/-- The flights fit the tasks' stances, and no task is about to break the protocol. -/
structure Orderly (s : System env α) : Prop where
  coordinated : Coordinated s.guard s.crew
  permitted {i : Nat} {task : Task Loader α} : s.tasks[i]? = some task → task.Permitted

theorem crew_setTask (s : System env α) (i : Nat) (task : Task Loader α) :
    (s.setTask i task).crew = s.crew.set i task.stance := by
  simp [crew, setTask, List.map_set]

theorem crew_of_task {i : Nat} {task : Task Loader α} (h : s.tasks[i]? = some task) :
    s.crew[i]? = some task.stance := by
  simp [crew, h]

theorem crew_answered {i : Nat} {stance : Stance} {p p' : CacheProc Loader α} (state : env.State)
    (h : s.tasks[i]? = some (.live stance p)) :
    ({ s with state }.setTask i (.live stance p')).crew = s.crew := by
  have hcrew : s.crew[i]? = some stance := crew_of_task h
  rw [crew_setTask]
  exact set_same hcrew

theorem forall_setTask {P : Nat → Task Loader α → Prop} {i : Nat} {task : Task Loader α}
    (h : ∀ {j other}, s.tasks[j]? = some other → P j other) (hi : P i task) {j : Nat}
    {other : Task Loader α} (hj : (s.setTask i task).tasks[j]? = some other) : P j other := by
  simp only [setTask, List.getElem?_set] at hj
  split at hj
  · rename_i hij
    split at hj
    · cases hj
      exact hij ▸ hi
    · cases hj
  · exact h hj

theorem Orderly.coordinated_step (h : Orderly s) (hs : Step s e t) : Coordinated t.guard t.crew := by
  cases hs with
  | @join i stance key next hi =>
    obtain rfl := h.permitted hi
    rw [crew_setTask]
    exact h.coordinated.join (crew_of_task hi) key
  | lead hi hturn =>
    obtain rfl := h.permitted hi
    rw [crew_setTask]
    exact h.coordinated.lead (crew_of_task hi) hturn
  | wait hi hturn =>
    obtain rfl := h.permitted hi
    exact h.coordinated.wait (crew_of_task hi) hturn
  | arrive hi hturn =>
    obtain rfl := h.permitted hi
    rw [crew_setTask]
    exact h.coordinated.arrive (crew_of_task hi) hturn
  | land hi =>
    obtain rfl := h.permitted hi
    rw [crew_setTask]
    exact h.coordinated.land (crew_of_task hi) _
  | leave hi =>
    obtain rfl := h.permitted hi
    rw [crew_setTask]
    exact h.coordinated.leave (crew_of_task hi)
  | act hi _ _ =>
    rw [crew_answered _ hi]
    exact h.coordinated
  | cancel hi _ =>
    rw [crew_setTask]
    exact h.coordinated.drop (crew_of_task hi)
  | drift _ => exact h.coordinated

structure Disciplined (s : System env α) : Prop where
  coordinated : Coordinated s.guard s.crew
  follows {i : Nat} {task : Task Loader α} : s.tasks[i]? = some task → task.Follows

theorem Disciplined.orderly (h : Disciplined s) : Orderly s :=
  ⟨h.coordinated, fun hi => (h.follows hi).permitted⟩

theorem Disciplined.step (h : Disciplined s) (hs : Step s e t) : Disciplined t := by
  refine ⟨h.orderly.coordinated_step hs, fun {j task} hj => ?_⟩
  have hset {i : Nat} {new : Task Loader α} (hj : (s.setTask i new).tasks[j]? = some task)
      (hnew : new.Follows) : task.Follows :=
    forall_setTask (P := fun _ task => task.Follows) h.follows hnew hj
  cases hs with
  | @join i stance key next hi =>
    obtain ⟨rfl, hnext⟩ := h.follows hi
    obtain ⟨_, hseat, -⟩ := h.coordinated.registered.join_cases key
    exact hset hj (hnext _ _ ⟨by rw [hseat], rfl⟩)
  | lead hi _ =>
    obtain ⟨-, hnext⟩ := h.follows hi
    exact hset hj (hnext none _ rfl)
  | wait hi _ => exact h.follows hj
  | arrive hi _ =>
    obtain ⟨-, hnext⟩ := h.follows hi
    exact hset hj (hnext (some _) _ rfl)
  | land hi =>
    obtain ⟨-, hnext⟩ := h.follows hi
    exact hset hj (hnext () _ rfl)
  | leave hi =>
    obtain ⟨-, hnext⟩ := h.follows hi
    exact hset hj (hnext () _ rfl)
  | act hi hr _ =>
    obtain ⟨-, hnext⟩ := h.follows hi
    exact hset hj (hnext _ _ ((admits_own hr).mpr rfl))
  | cancel _ _ => exact hset hj trivial
  | drift _ => exact h.follows hj

theorem Disciplined.run {trace : List (Event Loader)} (h : Disciplined s)
    (hrun : Run Step s trace t) : Disciplined t := by
  induction hrun with
  | refl => exact h
  | snoc _ hs ih => exact ih.step hs

theorem coordinated_start (state : env.State) (programs : List (CacheProc Loader α))
    {guard : Flights} (hidle : Idle guard) :
    Coordinated (start state programs guard).guard (start state programs guard).crew := by
  refine (coordinated_outside fun s hs => ?_).mpr hidle
  simp only [crew, start, List.map_map, List.mem_map, Function.comp_apply] at hs
  obtain ⟨p, -, rfl⟩ := hs
  rfl

theorem disciplined_start (state : env.State) {programs : List (CacheProc Loader α)}
    {guard : Flights} (hidle : Idle guard) (h : ∀ p ∈ programs, Follows .outside p) :
    Disciplined (start state programs guard) := by
  refine ⟨coordinated_start state programs hidle, fun {i task} hi => ?_⟩
  simp only [start, List.getElem?_map, Option.map_eq_some_iff] at hi
  obtain ⟨p, hp, rfl⟩ := hi
  exact h p (List.mem_of_getElem? hp)

/-- The outcome of a flight is set once, by the task that lands it. -/
theorem Orderly.outcome (h : Orderly s) (hs : Step s e t) (n : Nat) :
    (t.guard.flight n).outcome = (s.guard.flight n).outcome ∨
    ∃ i seat outcome, e = .landed i seat outcome ∧ seat.flight = n ∧
      (s.guard.flight n).outcome = none ∧ (t.guard.flight n).outcome = some outcome := by
  have hset {f : Flight} {seat : Seat} (hn : seat.flight < s.guard.flights.length)
      (hf : f.outcome = (s.guard.flight seat.flight).outcome) :
      ((s.guard.setFlight seat.flight f).flight n).outcome = (s.guard.flight n).outcome := by
    rw [flight_setFlight hn]
    split
    · rename_i heq
      exact heq ▸ hf
    · rfl
  cases hs with
  | join hi => exact .inl (congrArg _ (flight_join ..))
  | lead hi hturn =>
    obtain rfl := h.permitted hi
    have hn := h.coordinated.begun (crew_of_task hi) rfl
    obtain ⟨-, -, rfl⟩ := ask_lead hn hturn
    exact .inl (hset hn rfl)
  | wait hi hturn =>
    obtain rfl := h.permitted hi
    obtain ⟨-, -, rfl | ⟨-, rfl⟩⟩ := ask_wait hturn
    · exact .inl rfl
    · exact .inl (hset (h.coordinated.begun (crew_of_task hi) rfl) rfl)
  | arrive hi hturn =>
    obtain ⟨-, rfl⟩ := ask_landed hturn
    exact .inl rfl
  | @land i stance seat outcome next hi =>
    obtain rfl := h.permitted hi
    have hcrew : s.crew[i]? = some (.leading seat) := crew_of_task hi
    have hflight : (s.guard.land seat outcome).2.flight n =
        if n = seat.flight then { outcome := some outcome } else s.guard.flight n :=
      flight_setFlight (h.coordinated.begun hcrew rfl) n
    by_cases hn : n = seat.flight
    · subst hn
      have hleads := (h.coordinated.piloted seat.flight).leads ⟨i, seat, hcrew, rfl, rfl⟩
      exact .inr ⟨i, seat, outcome, rfl, rfl, hleads.1,
        congrArg Flight.outcome (hflight.trans (if_pos rfl))⟩
    · exact .inl (congrArg Flight.outcome (hflight.trans (if_neg hn)))
  | leave hi => exact .inl (congrArg _ (flight_leave ..))
  | act _ _ _ => exact .inl rfl
  | @cancel i stance r next hi _ =>
    have hguard : ((giveUpSeat s.guard stance).flight n).outcome = (s.guard.flight n).outcome := by
      cases hseat : stance.seat? with
      | none => simp only [giveUpSeat, hseat]
      | some seat =>
        simp only [giveUpSeat, hseat, flight_leave, giveUp_eq]
        exact hset (h.coordinated.begun (crew_of_task hi) hseat) (Flight.without_outcome ..)
    exact .inl hguard
  | drift _ => exact .inl rfl

theorem Orderly.final (h : Orderly s) (hs : Step s e t) {n : Nat} {outcome : Outcome}
    (hn : (s.guard.flight n).outcome = some outcome) :
    (t.guard.flight n).outcome = some outcome := by
  rcases h.outcome hs n with hsame | ⟨_, _, _, _, _, hnone, -⟩
  · exact hsame.trans hn
  · rw [hn] at hnone
    cases hnone

theorem Step.boards (hs : Step s e t) :
    s.guard.flights.length ≤ t.guard.flights.length ∧
    ∀ {key : String} {b : Boarding}, t.guard.boarding.get? key = some b →
      (∃ b', s.guard.boarding.get? key = some b' ∧ b'.flight = b.flight) ∨
      ∃ i seat, e = .joined i seat ∧ seat.key = key ∧ seat.flight = b.flight := by
  have hsame {guard : Flights} (hb : guard.boarding = s.guard.boarding)
      (hl : guard.flights.length = s.guard.flights.length) :
      s.guard.flights.length ≤ guard.flights.length ∧
      ∀ {key : String} {b : Boarding}, guard.boarding.get? key = some b →
        (∃ b', s.guard.boarding.get? key = some b' ∧ b'.flight = b.flight) ∨
        ∃ i seat, e = .joined i seat ∧ seat.key = key ∧ seat.flight = b.flight :=
    ⟨Nat.le_of_eq hl.symm, fun h => .inl ⟨_, hb ▸ h, rfl⟩⟩
  cases hs with
  | @join i stance key next hi =>
    refine ⟨join_length .., fun hb => ?_⟩
    rcases join_boards hb with h | ⟨rfl, hf⟩
    · exact .inl h
    · exact .inr ⟨i, _, rfl, (join_flight ..).1, hf⟩
  | @lead _ _ seat _ _ hi hturn =>
    have h := ask_boards s.guard seat
    rw [hturn] at h
    exact hsame h.1 h.2
  | @wait _ _ seat _ _ hi hturn =>
    have h := ask_boards s.guard seat
    rw [hturn] at h
    exact hsame h.1 h.2
  | @arrive _ _ seat _ _ _ hi hturn =>
    have h := ask_boards s.guard seat
    rw [hturn] at h
    exact hsame h.1 h.2
  | land hi => exact hsame rfl (by simp [setTask, Flights.land, Flights.setFlight])
  | leave hi => exact ⟨(leave_length ..).symm ▸ Nat.le_refl _, fun hb => .inl (leave_boards hb)⟩
  | act _ _ _ => exact hsame rfl rfl
  | @cancel i stance r next hi _ =>
    cases hseat : stance.seat? with
    | none => exact hsame (by simp [setTask, giveUpSeat, hseat]) (by simp [setTask, giveUpSeat, hseat])
    | some seat =>
      simp only [setTask, giveUpSeat, hseat, giveUp_eq]
      refine ⟨by simp [leave_length, Flights.setFlight], fun hb => ?_⟩
      obtain ⟨b', hb', hf⟩ := leave_boards hb
      exact .inl ⟨b', hb', hf⟩
  | drift _ => exact hsame rfl rfl

end System

end StackedCache.Concurrency

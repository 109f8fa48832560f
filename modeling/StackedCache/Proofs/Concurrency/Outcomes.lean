import StackedCache.Proofs.Concurrency.Balance

/-!
# One outcome for each flight

Of the callers on one flight one lands it, and its outcome is what all of them
answer with. What has happened is read off the trace of events: who joined
which flight, who landed it, and which exchanges a caller had with the
surroundings.
-/

namespace StackedCache.Concurrency

variable {Loader : Type} {env : Surroundings Loader}

namespace Event

def task? : Event Loader → Option Nat
  | .joined i _ | .led i _ | .waited i _ | .arrived i .. | .landed i .. | .left i _ | .acted i ..
  | .cancelled i => some i
  | .drifted => none

def landing? : Event Loader → Option Nat
  | .landed _ seat _ => some seat.flight
  | _ => none

def exchange? (i : Nat) : Event Loader → Option (Exchange (CacheCalls Loader))
  | .acted j r reply => if j = i then some ⟨r, reply⟩ else none
  | _ => none

end Event

def landings (trace : List (Event Loader)) : List Nat := trace.filterMap Event.landing?

def exchanges (i : Nat) (trace : List (Event Loader)) : List (Exchange (CacheCalls Loader)) :=
  trace.filterMap (Event.exchange? i)

def Joined (trace : List (Event Loader)) (i : Nat) (seat : Seat) : Prop :=
  ∀ seat', .joined i seat' ∈ trace ↔ seat' = seat

section
variable {trace : List (Event Loader)} {e : Event Loader} {i : Nat} {seat : Seat}

theorem joined_snoc :
    Event.joined i seat ∈ trace ++ [e] ↔ .joined i seat ∈ trace ∨ .joined i seat = e := by
  simp

theorem exchanges_snoc :
    exchanges i (trace ++ [e]) = exchanges i trace ++ (e.exchange? i).toList := by
  simp only [exchanges, List.filterMap_append]
  cases h : e.exchange? i <;> simp [h]

theorem mem_exchanges {x : Exchange (CacheCalls Loader)} : x ∈ exchanges i trace ↔ .acted i x.1 x.2 ∈ trace := by
  refine List.mem_filterMap.trans ⟨?_, fun h => ⟨_, h, by simp [Event.exchange?]⟩⟩
  rintro ⟨e, he, hx⟩
  cases e with
  | acted j r reply =>
    simp only [Event.exchange?, Option.ite_none_right_eq_some, Option.some.injEq] at hx
    obtain ⟨rfl, rfl⟩ := hx
    exact he
  | _ => cases hx

theorem landings_snoc : landings (trace ++ [e]) = landings trace ++ e.landing?.toList := by
  simp only [landings, List.filterMap_append]
  cases h : e.landing? <;> simp [h]

theorem exchange_other (h : e.task? ≠ some i) : e.exchange? i = none := by
  cases e with
  | acted j r reply => exact if_neg fun hji => h (congrArg some hji)
  | _ => rfl

theorem Joined.snoc (h : Joined trace i seat) (he : ∀ seat', e ≠ .joined i seat') :
    Joined (trace ++ [e]) i seat := by
  intro seat'
  rw [joined_snoc]
  exact ⟨fun hj => hj.elim (h seat').mp fun heq => absurd heq.symm (he seat'),
    fun heq => .inl ((h seat').mpr heq)⟩

end

-- ---------------------------------------------------------------------------
-- Flights against the trace
-- ---------------------------------------------------------------------------

/-- Which flights there are, for which keys, and with which outcomes, by what has happened. -/
structure Logged (trace : List (Event Loader)) (guard : Flights) : Prop where
  begun {i : Nat} {seat : Seat} : .joined i seat ∈ trace → seat.flight < guard.flights.length
  keyed {i j : Nat} {seat seat' : Seat} : .joined i seat ∈ trace → .joined j seat' ∈ trace →
    seat.flight = seat'.flight → seat.key = seat'.key
  boards {i : Nat} {seat : Seat} {key : String} {b : Boarding} : .joined i seat ∈ trace →
    guard.boarding.get? key = some b → seat.flight = b.flight → seat.key = key
  landed {n : Nat} {outcome : Outcome} : (guard.flight n).outcome = some outcome →
    ∃ i seat, .landed i seat outcome ∈ trace ∧ seat.flight = n
  landing {i : Nat} {seat : Seat} {outcome : Outcome} : .landed i seat outcome ∈ trace →
    (guard.flight seat.flight).outcome = some outcome
  once : (landings trace).Nodup

theorem mem_landings {trace : List (Event Loader)} {n : Nat} :
    n ∈ landings trace ↔ ∃ i seat outcome, .landed i seat outcome ∈ trace ∧ seat.flight = n := by
  simp only [landings, List.mem_filterMap]
  constructor
  · rintro ⟨e, he, hn⟩
    cases e with
    | landed i seat outcome =>
      cases hn
      exact ⟨i, seat, outcome, he, rfl⟩
    | _ => cases hn
  · rintro ⟨i, seat, outcome, he, rfl⟩
    exact ⟨_, he, rfl⟩

theorem logged_nil : Logged ([] : List (Event Loader)) {} :=
  ⟨by simp, by simp, by simp, by simp [Flights.flight], by simp, List.nodup_nil⟩

section
variable {α : Type} {trace : List (Event Loader)} {s t : System env α} {e : Event Loader}

theorem Logged.keyed_join (h : Logged trace s.guard) {i j : Nat} {seat seat' : Seat}
    (hs : System.Step s (.joined i seat) t) (hj : .joined j seat' ∈ trace)
    (hf : seat'.flight = seat.flight) : seat'.key = seat.key := by
  cases hs with
  | @join _ stance key next hi =>
    obtain ⟨hkey, ⟨b, hb, hbf⟩ | hnew⟩ := join_flight s.guard key
    · exact (h.boards hj hb (hf.trans hbf.symm)).trans hkey.symm
    · exact absurd (hf.trans hnew) (Nat.ne_of_lt (h.begun hj))

theorem Logged.step (h : Logged trace s.guard) (ho : s.Orderly) (hs : System.Step s e t) :
    Logged (trace ++ [e]) t.guard := by
  obtain ⟨hlen, hboards⟩ := hs.boards
  constructor
  case begun =>
    intro i seat hj
    rcases joined_snoc.mp hj with hj | rfl
    · exact Nat.lt_of_lt_of_le (h.begun hj) hlen
    · cases hs with
      | @join _ stance key next hi =>
        obtain ⟨flight, hseat, _, _, _, hflight, -⟩ := ho.coordinated.registered.join_cases key
        exact hseat ▸ hflight
  case keyed =>
    intro i j seat seat' hi hj hf
    rcases joined_snoc.mp hi with hi | rfl <;> rcases joined_snoc.mp hj with hj | hj
    · exact h.keyed hi hj hf
    · exact h.keyed_join (hj ▸ hs) hi hf
    · exact (h.keyed_join hs hj hf.symm).symm
    · cases hj
      rfl
  case boards =>
    intro i seat key b hj hb hf
    rcases hboards hb with ⟨b', hb', hbf⟩ | ⟨k, seat', rfl, rfl, hbf⟩
    · rcases joined_snoc.mp hj with hj | rfl
      · exact h.boards hj hb' (hf.trans hbf.symm)
      · cases hs with
        | @join _ stance key' next hi =>
          obtain ⟨flight, hseat, _, _, _, _, _, hsep⟩ :=
            ho.coordinated.registered.join_cases key'
          rw [hseat] at hf ⊢
          exact (hsep key b' hb' (hbf.trans hf.symm)).symm
    · rcases joined_snoc.mp hj with hj | hj
      · exact h.keyed_join hs hj (hf.trans hbf.symm)
      · cases hj
        rfl
  case landed =>
    intro n outcome hout
    rcases ho.outcome hs n with hsame | ⟨i, seat, outcome', rfl, rfl, -, hnew⟩
    · obtain ⟨i, seat, hmem, hn⟩ := h.landed (hsame ▸ hout)
      exact ⟨i, seat, List.mem_append_left _ hmem, hn⟩
    · rw [hnew] at hout
      cases hout
      exact ⟨i, seat, by simp, rfl⟩
  case landing =>
    intro i seat outcome hmem
    rcases List.mem_append.mp hmem with hmem | hmem
    · have hbefore := h.landing hmem
      rcases ho.outcome hs seat.flight with hsame | ⟨_, _, _, _, _, hnone, -⟩
      · exact hsame.trans hbefore
      · rw [hbefore] at hnone
        cases hnone
    · cases List.mem_singleton.mp hmem
      cases hs with
      | land hi =>
        obtain rfl := ho.permitted hi
        refine (congrArg Flight.outcome (flight_setFlight ?_ _)).trans (by simp)
        exact ho.coordinated.begun (System.crew_of_task hi) rfl
  case once =>
    rw [landings_snoc]
    cases hn : e.landing? with
    | none => simpa using h.once
    | some n =>
      have hnew : n ∉ landings trace := by
        intro hmem
        obtain ⟨j, seat', outcome', hj, hf⟩ := mem_landings.mp hmem
        have hbefore := h.landing hj
        cases hs with
        | land hi =>
          obtain rfl := ho.permitted hi
          cases hn
          rw [hf, ho.coordinated.leading_open (System.crew_of_task hi)] at hbefore
          cases hbefore
        | _ => cases hn
      refine List.nodup_append.mpr ⟨h.once, by simp, ?_⟩
      rintro m hm _ hn rfl
      exact hnew ((by simpa using hn : m = n) ▸ hm)

end

-- ---------------------------------------------------------------------------
-- Callers against the trace
-- ---------------------------------------------------------------------------

def Progress.Logged (i : Nat) (key : String) (trace : List (Event Loader)) (guard : Flights) :
    Progress Loader → Prop
  | .outside => (∀ seat, .joined i seat ∉ trace) ∧ exchanges i trace = []
  | .waiting seat => Joined trace i seat ∧ seat.key = key ∧ exchanges i trace = []
  | .leading seat had => Joined trace i seat ∧ seat.key = key ∧ exchanges i trace = had
  | .landed seat outcome | .gone seat outcome => Joined trace i seat ∧ seat.key = key ∧
    (guard.flight seat.flight).outcome = some outcome

def Task.Logged (i : Nat) (call : String × CacheProc Loader Outcome) (trace : List (Event Loader))
    (guard : Flights) : Task Loader Outcome → Prop
  | .live stance p => ∃ progress, progress.stance = stance ∧ GoesOn call.1 call.2 p progress ∧
    progress.Logged i call.1 trace guard
  | .dropped => True

/-- What a caller has landed is what its load has ended with. -/
def Truthful (calls : List (String × CacheProc Loader Outcome)) (trace : List (Event Loader)) : Prop :=
  ∀ {i seat outcome}, .landed i seat outcome ∈ trace → Joined trace i seat ∧
    ∃ load, calls[i]? = some (seat.key, load) ∧ load.Ends (exchanges i trace) outcome

section
variable {trace : List (Event Loader)} {guard guard' : Flights} {e : Event Loader} {i : Nat}
  {key : String} {call : String × CacheProc Loader Outcome}

theorem exchanges_kept (he : e.exchange? i = none) :
    exchanges i (trace ++ [e]) = exchanges i trace := by
  rw [exchanges_snoc, he]
  exact List.append_nil _

/-- A caller's record stays true, unless the caller joins a flight or asks its surroundings. -/
theorem Progress.Logged.keep {progress : Progress Loader}
    (h : progress.Logged i key trace guard) (hj : ∀ seat, e ≠ .joined i seat)
    (he : e.exchange? i = none)
    (hout : ∀ {n outcome}, (guard.flight n).outcome = some outcome →
      (guard'.flight n).outcome = some outcome) :
    progress.Logged i key (trace ++ [e]) guard' := by
  have hex : exchanges i (trace ++ [e]) = exchanges i trace := exchanges_kept he
  cases progress with
  | outside =>
    refine ⟨fun seat hmem => ?_, hex.trans h.2⟩
    rcases joined_snoc.mp hmem with hmem | heq
    · exact h.1 seat hmem
    · exact hj seat heq.symm
  | waiting seat => exact ⟨h.1.snoc hj, h.2.1, hex.trans h.2.2⟩
  | leading seat had => exact ⟨h.1.snoc hj, h.2.1, hex.trans h.2.2⟩
  | landed seat outcome => exact ⟨h.1.snoc hj, h.2.1, hout h.2.2⟩
  | gone seat outcome => exact ⟨h.1.snoc hj, h.2.1, hout h.2.2⟩

theorem Task.Logged.keep {task : Task Loader Outcome} (h : task.Logged i call trace guard)
    (hj : ∀ seat, e ≠ .joined i seat) (he : e.exchange? i = none)
    (hout : ∀ {n outcome}, (guard.flight n).outcome = some outcome →
      (guard'.flight n).outcome = some outcome) :
    task.Logged i call (trace ++ [e]) guard' := by
  cases task with
  | dropped => trivial
  | live stance p =>
    obtain ⟨progress, hstance, hgoes, hlog⟩ := h
    exact ⟨progress, hstance, hgoes, hlog.keep hj he hout⟩

def AllLogged (calls : List (String × CacheProc Loader Outcome)) (trace : List (Event Loader))
    (guard : Flights) (tasks : List (Task Loader Outcome)) : Prop :=
  ∀ (i : Nat) (task : Task Loader Outcome), tasks[i]? = some task → ∃ call, calls[i]? = some call ∧
    task.Logged i call trace guard

variable {calls : List (String × CacheProc Loader Outcome)} {tasks : List (Task Loader Outcome)}

theorem AllLogged.keep (h : AllLogged calls trace guard tasks)
    (hj : ∀ i seat, e ≠ .joined i seat) (he : ∀ i, e.exchange? i = none)
    (hout : ∀ {n outcome}, (guard.flight n).outcome = some outcome →
      (guard'.flight n).outcome = some outcome) : AllLogged calls (trace ++ [e]) guard' tasks := by
  intro i task hi
  obtain ⟨call, hc, hlog⟩ := h i task hi
  exact ⟨call, hc, hlog.keep (hj i) (he i) hout⟩

theorem AllLogged.set (h : AllLogged calls trace guard tasks) (he : e.task? = some i)
    (hout : ∀ {n outcome}, (guard.flight n).outcome = some outcome →
      (guard'.flight n).outcome = some outcome)
    (hc : calls[i]? = some call) {new : Task Loader Outcome}
    (hnew : new.Logged i call (trace ++ [e]) guard') :
    AllLogged calls (trace ++ [e]) guard' (tasks.set i new) := by
  intro j task hj
  rw [List.getElem?_set] at hj
  split at hj
  · rename_i hij
    subst hij
    split at hj
    · cases hj
      exact ⟨call, hc, hnew⟩
    · cases hj
  · rename_i hij
    have hother : e.task? ≠ some j := by
      rw [he]
      exact fun heq => hij (Option.some.inj heq)
    obtain ⟨call', hc', hlog⟩ := h j task hj
    refine ⟨call', hc', hlog.keep ?_ (exchange_other hother) hout⟩
    rintro seat rfl
    exact hother rfl

theorem AllLogged.caller (h : AllLogged calls trace guard tasks) {stance : Stance}
    {r : CacheRequest Loader} {next : r.Reply → CacheProc Loader Outcome}
    (hi : tasks[i]? = some (.live stance (Proc.ask r next))) :
    ∃ key load progress, calls[i]? = some (key, load) ∧ progress.stance = stance ∧
      (sharing key load).permits progress r ∧
      (∀ reply progress', (sharing key load).admits progress r reply progress' →
        GoesOn key load (next reply) progress') ∧
      progress.Logged i key trace guard := by
  obtain ⟨⟨key, load⟩, hc, progress, hstance, hgoes, hlog⟩ := h i _ hi
  exact ⟨key, load, progress, hc, hstance, hgoes.1, hgoes.2, hlog⟩

end

structure Accounted (calls : List (String × CacheProc Loader Outcome))
    (trace : List (Event Loader)) (s : System env Outcome) : Prop where
  flights : Logged trace s.guard
  callers : AllLogged calls trace s.guard s.tasks
  truthful : Truthful calls trace

section
variable {calls : List (String × CacheProc Loader Outcome)} {trace : List (Event Loader)}
  {s t : System env Outcome} {e : Event Loader}

theorem Accounted.callers_step (h : Accounted calls trace s) (ho : s.Orderly)
    (hs : System.Step s e t) : AllLogged calls (trace ++ [e]) t.guard t.tasks := by
  have hout {n : Nat} {outcome : Outcome} (hn : (s.guard.flight n).outcome = some outcome) :
      (t.guard.flight n).outcome = some outcome := ho.final hs hn
  have hflights := h.flights.step ho hs
  cases hs with
  | @join i stance key next hi =>
    obtain ⟨key, load, progress, hc, -, ⟨rfl, rfl⟩, hnext, hnone, hex⟩ := h.callers.caller hi
    refine h.callers.set rfl hout hc ⟨_, rfl, hnext _ _ rfl, fun seat => ?_, ?_, ?_⟩
    · rw [joined_snoc]
      exact ⟨fun hj => hj.elim (fun hj => absurd hj (hnone seat)) fun heq => by cases heq; rfl,
        fun heq => .inr (heq ▸ rfl)⟩
    · exact (join_flight ..).1
    · exact (exchanges_kept rfl).trans hex
  | lead hi hturn =>
    obtain ⟨key, load, progress, hc, -, rfl, hnext, hj, hkey, hex⟩ := h.callers.caller hi
    exact h.callers.set rfl hout hc
      ⟨_, rfl, hnext none _ rfl, hj.snoc (by simp), hkey, (exchanges_kept rfl).trans hex⟩
  | wait hi hturn => exact h.callers.keep (by simp) (fun _ => rfl) hout
  | arrive hi hturn =>
    obtain ⟨key, load, progress, hc, -, rfl, hnext, hj, hkey, hex⟩ := h.callers.caller hi
    obtain ⟨hlanded, rfl⟩ := ask_landed hturn
    exact h.callers.set rfl hout hc ⟨_, rfl, hnext (some _) _ rfl, hj.snoc (by simp), hkey, hlanded⟩
  | land hi =>
    obtain ⟨key, load, progress, hc, -, ⟨had, rfl, hends⟩, hnext, hj, hkey, hex⟩ :=
      h.callers.caller hi
    have hlanded := hflights.landing (List.mem_append_right _ List.mem_cons_self)
    exact h.callers.set rfl hout hc ⟨_, rfl, hnext () _ rfl, hj.snoc (by simp), hkey, hlanded⟩
  | leave hi =>
    obtain ⟨key, load, progress, hc, -, ⟨outcome, rfl⟩, hnext, hj, hkey, hlanded⟩ :=
      h.callers.caller hi
    exact h.callers.set rfl hout hc
      ⟨_, rfl, hnext () _ ⟨outcome, rfl, rfl⟩, hj.snoc (by simp), hkey, hout hlanded⟩
  | @act i stance r next reply state hi hr _ =>
    obtain ⟨key, load, progress, hc, hstance, hp, hnext, hlog⟩ := h.callers.caller hi
    obtain ⟨seat, had, rfl⟩ := (sharing_permits hr).mp hp
    obtain ⟨hj, hkey, hex⟩ := hlog
    refine h.callers.set rfl hout hc ⟨.leading seat (had ++ [⟨r, reply⟩]), hstance,
      hnext reply _ ((sharing_admits hr).mpr ⟨seat, had, rfl, rfl⟩), hj.snoc (by simp), hkey, ?_⟩
    rw [exchanges_snoc, hex]
    simp [Event.exchange?]
  | @cancel i stance r next hi _ =>
    obtain ⟨key, load, progress, hc, -⟩ := h.callers.caller hi
    have hdropped : Task.Logged i (key, load) (trace ++ [.cancelled i])
        (giveUpSeat s.guard stance) .dropped := trivial
    exact h.callers.set rfl hout hc hdropped
  | drift _ => exact h.callers.keep (by simp) (fun _ => rfl) hout

theorem Accounted.truthful_step (h : Accounted calls trace s) (ho : s.Orderly)
    (hs : System.Step s e t) : Truthful calls (trace ++ [e]) := by
  intro j seat outcome hmem
  rcases List.mem_append.mp hmem with hpast | hnow
  · obtain ⟨hj, load, hc, hends⟩ := h.truthful hpast
    -- the caller neither joins another flight nor asks for anything any more
    have hidle : (∀ seat', e ≠ .joined j seat') ∧ e.exchange? j = none := by
      cases hs with
      | @join i stance key next hi =>
        refine ⟨fun seat' heq => ?_, rfl⟩
        cases heq
        obtain ⟨_, _, _, _, -, ⟨rfl, rfl⟩, _, hnone, -⟩ := h.callers.caller hi
        exact hnone seat ((hj seat).mpr rfl)
      | @act i stance r next reply state hi hr _ =>
        refine ⟨by simp, if_neg ?_⟩
        rintro rfl
        obtain ⟨_, _, _, _, hstance, hp, _, hlog⟩ := h.callers.caller hi
        obtain ⟨seat', had, rfl⟩ := (sharing_permits hr).mp hp
        have hseat := (hlog.1 seat).mp ((hj seat).mpr rfl)
        have hleads : s.crew[i]? = some (.leading seat') := System.crew_of_task (hstance ▸ hi)
        have hopen := ho.coordinated.leading_open hleads
        rw [← hseat, h.flights.landing hpast] at hopen
        cases hopen
      | _ => exact ⟨by simp, rfl⟩
    refine ⟨hj.snoc hidle.1, load, hc, ?_⟩
    rw [exchanges_kept hidle.2]
    exact hends
  · cases List.mem_singleton.mp hnow
    cases hs with
    | land hi =>
      obtain ⟨key, load, progress, hc, -, ⟨had, rfl, hends⟩, -, hj, hkey, hex⟩ :=
        h.callers.caller hi
      refine ⟨hj.snoc (by simp), load, hkey ▸ hc, ?_⟩
      rw [exchanges_kept rfl, hex]
      exact hends

theorem Accounted.step (h : Accounted calls trace s) (ho : s.Orderly) (hs : System.Step s e t) :
    Accounted calls (trace ++ [e]) t :=
  ⟨h.flights.step ho hs, h.callers_step ho hs, h.truthful_step ho hs⟩

theorem accounted_start (hplain : ∀ call ∈ calls, Plain call.2) (state : env.State) :
    Accounted calls [] (System.start state (callers calls) : System env Outcome) := by
  refine ⟨logged_nil, ?_, fun hj => by simp at hj⟩
  intro i task hi
  simp only [System.start, callers, List.map_map, List.getElem?_map, Option.map_eq_some_iff] at hi
  obtain ⟨call, hc, rfl⟩ := hi
  exact ⟨call, hc, .outside, rfl, share_goesOn (hplain call (List.mem_of_getElem? hc)) call.1,
    by simp, rfl⟩

theorem accounted_run (hplain : ∀ call ∈ calls, Plain call.2) {state : env.State}
    (hrun : Run System.Step (System.start state (callers calls)) trace s) :
    s.Disciplined ∧ Accounted calls trace s := by
  induction hrun with
  | refl => exact ⟨disciplined_callers hplain state, accounted_start hplain state⟩
  | snoc _ hs ih => exact ⟨ih.1.step hs, ih.2.step ih.1.orderly hs⟩

theorem Accounted.returned (h : Accounted calls trace s) {i : Nat} {key : String}
    {load : CacheProc Loader Outcome} {task : Task Loader Outcome} {result : Outcome}
    (hc : calls[i]? = some (key, load)) (hi : s.tasks[i]? = some task)
    (hresult : task.result? = some result) :
    ∃ seat outcome, Joined trace i seat ∧ seat.key = key ∧
      (s.guard.flight seat.flight).outcome = some outcome ∧
      result = outcome.mapError (·.share) := by
  obtain ⟨call, hc', hlog⟩ := h.callers i task hi
  rw [hc] at hc'
  cases hc'
  cases task with
  | dropped => cases hresult
  | live stance p =>
    cases p with
    | ask r next => cases hresult
    | done a =>
      cases hresult
      obtain ⟨progress, -, ⟨seat, outcome, rfl, hanswer⟩, hj, hkey, hout⟩ := hlog
      exact ⟨seat, outcome, hj, hkey, hout, hanswer⟩

/-- At any time at most one caller for a key loads; a flight is landed at most once; and who
returns has joined one flight, for its key, and returns a copy of the outcome with which a
caller for that key has landed that flight after its own load. -/
theorem callers_share_one_outcome (hplain : ∀ call ∈ calls, Plain call.2) {state : env.State}
    (hrun : Run System.Step (System.start state (callers calls)) trace s) :
    (∀ (i j : Nat) (seat seat' : Seat), s.crew[i]? = some (.leading seat) →
      s.crew[j]? = some (.leading seat') → seat.key = seat'.key → i = j) ∧
    (landings trace).Nodup ∧
    (∀ (i : Nat) (key : String) (load : CacheProc Loader Outcome) (task : Task Loader Outcome)
      (result : Outcome), calls[i]? = some (key, load) → s.tasks[i]? = some task →
      task.result? = some result →
      ∃ (seat : Seat) (j : Nat) (load' : CacheProc Loader Outcome) (seat' : Seat)
        (outcome : Outcome),
        Joined trace i seat ∧ seat.key = key ∧
        .landed j seat' outcome ∈ trace ∧ seat'.flight = seat.flight ∧
        calls[j]? = some (key, load') ∧ load'.Ends (exchanges j trace) outcome ∧
        result = outcome.mapError (·.share)) := by
  obtain ⟨ho, h⟩ := accounted_run hplain hrun
  refine ⟨fun _ _ _ _ hi hj hkey => ho.coordinated.exclusive hi hj hkey, h.flights.once, ?_⟩
  intro i key load task result hc hi hresult
  obtain ⟨seat, outcome, hj, hkey, hout, hanswer⟩ := h.returned hc hi hresult
  obtain ⟨j, seat', hlanded, hflight⟩ := h.flights.landed hout
  obtain ⟨hj', load', hc', hends⟩ := h.truthful hlanded
  have hkey' : seat'.key = key :=
    (h.flights.keyed ((hj' seat').mpr rfl) ((hj seat).mpr rfl) hflight).trans hkey
  exact ⟨seat, j, load', seat', outcome, hj, hkey, hlanded, hflight, hkey' ▸ hc', hends, hanswer⟩

end

/-- Two callers for a key: the second boards while the first loads, and has its outcome. -/
theorem callers_share_one_outcome_two :
    ∃ (s : System (anything Nat) Outcome) (trace : List (Event Nat)),
      Run System.Step twoCallers trace s ∧ trace.length = 8 ∧
      (s.tasks[1]?.bind Task.result?) = some (.ok [7]) ∧ (landings trace).Nodup := by
  have hstart : Run System.Step twoCallers [] twoCallers := .refl
  have hreply : (anything Nat).answers () (.load 0) (.ok ⟨[7], none⟩) () := trivial
  have hrun := hstart.snoc (.join (i := 0) rfl) |>.snoc (.lead (i := 0) rfl rfl)
    |>.snoc (.join (i := 1) rfl) |>.snoc (.act (i := 0) rfl rfl hreply)
    |>.snoc (.land (i := 0) rfl) |>.snoc (.arrive (i := 1) rfl rfl) |>.snoc (.leave (i := 1) rfl)
    |>.snoc (.leave (i := 0) rfl)
  exact ⟨_, _, hrun, rfl, rfl, (callers_share_one_outcome twoCalls_plain hrun).2.1⟩

end StackedCache.Concurrency

import Mathlib.Logic.ExistsUnique
import StackedCache.Proofs.Concurrency.Callers

/-!
# Boardings neither leak nor get stuck

In every state of a system of orderly tasks, the guard has on board exactly
those who are, and a flight without an outcome has a leader or takes the next
one among those who wait.
-/

namespace StackedCache.Concurrency

variable {Loader α : Type} {env : Surroundings Loader}

theorem size_eq_zero {table : Table α} (h : ∀ key, table.get? key = none) : table.size = 0 := by
  obtain ⟨rows, hrows⟩ := table
  cases rows with
  | nil => rfl
  | cons row rest => simpa [Table.get?, Table.lookup] using h row.1

theorem ask_open {guard : Flights} {seat : Seat} (ho : (guard.flight seat.flight).outcome = none)
    (hl : (guard.flight seat.flight).leader = none ∨
      (guard.flight seat.flight).leader = some seat.ticket) : (guard.ask seat).1 = .lead := by
  rcases hl with hl | hl <;> simp [Flights.ask, ho, hl]

namespace System

variable {s : System env α}

def inside (s : System env α) (key : String) : Nat :=
  s.crew.countP fun stance => sitsFor key stance.seat?

def Led (s : System env α) (key : String) : Prop :=
  ∃! i : Nat, ∃ seat : Seat, s.crew[i]? = some (Stance.leading seat) ∧ seat.key = key

/-- Nobody leads for the key, and a task that waits for it can. -/
def Open (s : System env α) (key : String) : Prop :=
  (∀ (i : Nat) (seat : Seat), s.crew[i]? = some (.leading seat) → seat.key ≠ key) ∧
  ∃ (i : Nat) (seat : Seat), s.crew[i]? = some (.waiting seat) ∧ seat.key = key ∧
    (s.guard.ask seat).1 = .lead

structure Balanced (s : System env α) : Prop where
  /-- A key has a flight as long as somebody is on board for it, and all of them are counted. -/
  counted (key : String) : (s.guard.boarding.get? key).map Boarding.aboard =
    if s.inside key = 0 then none else some (s.inside key)
  /-- Who is on board sits on the flight of its key, so that its leaving is counted there. -/
  boarded {i : Nat} {stance : Stance} {seat : Seat} : s.crew[i]? = some stance →
    stance.seat? = some seat →
    ∃ b, s.guard.boarding.get? seat.key = some b ∧ b.flight = seat.flight ∧ 0 < b.aboard
  led {key : String} {b : Boarding} : s.guard.boarding.get? key = some b →
    (s.guard.flight b.flight).outcome = none → s.Led key ∨ s.Open key
  emptied : (∀ task ∈ s.tasks, task.isOver) → s.guard.inFlight = 0
  /-- The first to come for a key is on a new flight and leads it. -/
  fresh (key : String) : s.inside key = 0 →
    (s.guard.join key).1.flight = s.guard.flights.length ∧
      ((s.guard.join key).2.ask (s.guard.join key).1).1 = .lead

theorem inside_eq (s : System env α) (key : String) :
    (s.crew.map Stance.seat?).countP (sitsFor key) = s.inside key := by
  rw [List.countP_map]
  rfl

theorem Orderly.counted (h : Orderly s) (key : String) :
    (s.guard.boarding.get? key).map Boarding.aboard =
      if s.inside key = 0 then none else some (s.inside key) := by
  rw [← inside_eq]
  exact h.coordinated.registered.aboard key

theorem Orderly.occupied (h : Orderly s) {key : String} {b : Boarding}
    (hb : s.guard.boarding.get? key = some b) :
    ∃ (i : Nat) (stance : Stance) (seat : Seat), s.crew[i]? = some stance ∧
      stance.seat? = some seat ∧ seat.key = key ∧ seat.flight = b.flight := by
  obtain ⟨hcount, hpos⟩ := h.coordinated.registered.counted hb
  rw [hcount, inside_eq] at hpos
  obtain ⟨stance, hmem, hsits⟩ := List.countP_pos_iff.mp hpos
  obtain ⟨i, hi⟩ := List.getElem?_of_mem hmem
  cases hs : stance.seat? with
  | none => simp [hs] at hsits
  | some seat =>
    have hkey : seat.key = key := by simpa [hs] using hsits
    obtain ⟨b', hb', hf⟩ := h.coordinated.boarded hi hs
    rw [hkey, hb] at hb'
    cases hb'
    exact ⟨i, stance, seat, hi, hs, hkey, hf.symm⟩

theorem Orderly.sits (h : Orderly s) {i : Nat} {key : String} {b : Boarding} {stance : Stance}
    {seat : Seat} (hb : s.guard.boarding.get? key = some b) (hi : s.crew[i]? = some stance)
    (hs : stance.seat? = some seat) (hf : seat.flight = b.flight) : seat.key = key := by
  obtain ⟨b', hb', hf'⟩ := h.coordinated.boarded hi hs
  exact h.coordinated.registered.separate hb' hb (hf'.trans hf)

/-- What holds of each outcome with which a task lands a flight of the key holds of the outcome of
the flight that is boarding. -/
theorem Orderly.outcome_step (h : Orderly s) {e : Event Loader} {t : System env α} (hs : Step s e t)
    {key : String} {P : Outcome → Prop}
    (hbefore : ∀ {b : Boarding} {outcome : Outcome}, s.guard.boarding.get? key = some b →
      (s.guard.flight b.flight).outcome = some outcome → P outcome)
    (hland : ∀ {i : Nat} {stance : Stance} {seat : Seat} {outcome : Outcome}
      {next : Unit → CacheProc Loader α}, e = .landed i seat outcome →
      s.tasks[i]? = some (.live stance (Proc.ask (.land seat outcome) next)) → seat.key = key →
      P outcome)
    {b : Boarding} {outcome : Outcome} (hb : t.guard.boarding.get? key = some b)
    (ho : (t.guard.flight b.flight).outcome = some outcome) : P outcome := by
  rcases hs.boards.2 hb with ⟨b', hb', hf⟩ | ⟨i, seat, rfl, hkey, hf⟩
  · rcases h.outcome hs b.flight with hsame | ⟨i, seat, outcome', rfl, hflight, -, hsome⟩
    · exact hbefore hb' (hf ▸ hsame ▸ ho)
    · cases hs with
      | land hi =>
        obtain rfl := h.permitted hi
        rw [hsome] at ho
        cases ho
        exact hland rfl hi (h.sits hb' (crew_of_task hi) rfl (hflight.trans hf.symm))
  · cases hs with
    | @join _ stance key' next hi =>
      have hsame : (s.guard.flight b.flight).outcome = some outcome := by
        rw [← ho]
        exact congrArg Flight.outcome (flight_join s.guard key' b.flight).symm
      obtain ⟨hkey', ⟨b', hb', hf'⟩ | hnew⟩ := join_flight s.guard key'
      · obtain rfl := hkey'.symm.trans hkey
        exact hbefore hb' (hf'.trans hf ▸ hsame)
      · rw [← hf, hnew] at hsame
        simp [Flights.flight] at hsame

/-- A flight without an outcome goes on: the lead is used, or it is there to be taken. -/
theorem Orderly.led (h : Orderly s) {key : String} {b : Boarding}
    (hb : s.guard.boarding.get? key = some b)
    (ho : (s.guard.flight b.flight).outcome = none) : s.Led key ∨ s.Open key := by
  have hpiloted := h.coordinated.piloted b.flight
  -- who leads for the key has the lead of its flight
  have hlead {i : Nat} {seat : Seat} (hi : s.crew[i]? = some (.leading seat))
      (hkey : seat.key = key) : (s.guard.flight b.flight).leader = some seat.ticket := by
    obtain ⟨j, stance, seat', hj, hs', hkey', hf⟩ := h.occupied hb
    have hflight := (h.coordinated.together hi rfl hj hs' (hkey.trans hkey'.symm)).trans hf
    exact (hpiloted.leads ⟨i, seat, hi, hflight, rfl⟩).2
  cases hl : (s.guard.flight b.flight).leader with
  | none =>
    have hnone (i : Nat) (seat : Seat) (hi : s.crew[i]? = some (.leading seat)) :
        seat.key ≠ key := by
      intro hkey
      rw [hlead hi hkey] at hl
      cases hl
    obtain ⟨i, stance, seat, hi, hs, hkey, hf⟩ := h.occupied hb
    refine .inr ⟨hnone, i, seat, ?_, hkey, ask_open (hf ▸ ho) (hf ▸ .inl hl)⟩
    cases stance with
    | outside => cases hs
    | waiting _ =>
      cases hs
      exact hi
    | leading _ =>
      cases hs
      exact absurd hkey (hnone i seat hi)
    | landed _ =>
      cases hs
      exact absurd ho (hpiloted.knows hi hf)
  | some ticket =>
    rcases (hpiloted.led hl).2 with ⟨i, seat, hi, hf, ht⟩ | ⟨i, seat, hi, hf, ht⟩
    · refine .inr ⟨?_, i, seat, hi, h.sits hb hi rfl hf, ask_open (hf ▸ ho) (hf ▸ ht ▸ .inr hl)⟩
      intro j seat' hj hkey
      have ht' := Option.some.inj ((hlead hj hkey).symm.trans hl)
      have hij := h.coordinated.distinct hj hi rfl rfl (ht'.trans ht.symm)
      rw [hij, hi] at hj
      cases hj
    · have hkey := h.sits hb hi rfl hf
      refine .inl ⟨i, ⟨seat, hi, hkey⟩, ?_⟩
      rintro j ⟨seat', hj, hkey'⟩
      exact h.coordinated.exclusive hj hi (hkey'.trans hkey.symm)

theorem Orderly.idle (h : Orderly s) (hover : ∀ task ∈ s.tasks, task.isOver) :
    Idle s.guard := by
  refine (coordinated_outside ?_).mp h.coordinated
  intro stance hs
  obtain ⟨task, htask, rfl⟩ := List.mem_map.mp hs
  obtain ⟨i, hi⟩ := List.getElem?_of_mem htask
  have hpermitted := h.permitted hi
  have hend := hover task htask
  cases task with
  | dropped => rfl
  | live stance p =>
    cases p with
    | done a => exact hpermitted
    | ask r next => cases hend

theorem join_fresh {guard : Flights} {key : String} (hb : guard.boarding.get? key = none) :
    (guard.join key).1.flight = guard.flights.length ∧
      ((guard.join key).2.ask (guard.join key).1).1 = .lead := by
  simp [Flights.join, hb, Flights.ask, Flights.flight]

theorem Orderly.balanced (h : Orderly s) : Balanced s := by
  refine ⟨h.counted, ?_, h.led, ?_, ?_⟩
  · intro i stance seat hi hs
    obtain ⟨b, hb, hf⟩ := h.coordinated.boarded hi hs
    exact ⟨b, hb, hf, (h.coordinated.registered.counted hb).2⟩
  · exact fun hover => size_eq_zero (h.idle hover).empty
  · intro key hzero
    refine join_fresh ?_
    have hcount := h.counted key
    rw [if_pos hzero] at hcount
    exact Option.map_eq_none_iff.mp hcount

end System

/-- Whichever way callers join, load, wait, land, leave and are dropped, nobody is lost and
nobody is left behind. -/
theorem registrations_balanced {calls : List (String × CacheProc Loader Outcome)}
    (hplain : ∀ call ∈ calls, Plain call.2) {state : env.State} {trace : List (Event Loader)}
    {s : System env Outcome} (hrun : Run System.Step (System.start state (callers calls)) trace s) :
    s.Balanced :=
  ((disciplined_callers hplain state).run hrun).orderly.balanced

theorem registrations_balanced_takeover :
    ∃ s : System (anything Nat) Outcome,
      Run System.Step twoCallers
        [.joined 0 ⟨"k", 0, 0⟩, .led 0 ⟨"k", 0, 0⟩, .joined 1 ⟨"k", 0, 1⟩, .waited 1 ⟨"k", 0, 1⟩,
          .cancelled 0] s ∧
      s.inside "k" = 1 ∧ s.Balanced := by
  have hstart : Run System.Step twoCallers [] twoCallers := .refl
  have hrun := hstart.snoc (.join (i := 0) rfl) |>.snoc (.lead (i := 0) rfl rfl)
    |>.snoc (.join (i := 1) rfl) |>.snoc (.wait (i := 1) rfl rfl) |>.snoc (.cancel (i := 0) rfl rfl)
  exact ⟨_, hrun, by decide, registrations_balanced twoCalls_plain hrun⟩

end StackedCache.Concurrency

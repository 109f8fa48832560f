import StackedCache.Proofs.Concurrency.Boarding
import StackedCache.Proofs.Concurrency.Lead

/-!
# Flights and their crew

The crew are the stances of all tasks. The guard's flights fit with them: all
seats are registered, and every flight is piloted. Each step of a flight keeps
both.
-/

namespace StackedCache.Concurrency

/-- The flights of a guard and the tasks' stances fit together. -/
structure Coordinated (guard : Flights) (crew : List Stance) : Prop where
  registered : Registered guard (crew.map Stance.seat?)
  piloted (n : Nat) : Piloted (guard.flight n) crew n

section
variable {guard : Flights} {crew : List Stance} {i n : Nat} {seat : Seat} {s : Stance}

theorem Coordinated.seats (hi : crew[i]? = some s) :
    (crew.map Stance.seat?)[i]? = some s.seat? := by
  simp [hi]

theorem Coordinated.distinct (h : Coordinated guard crew) : Distinct crew := by
  intro i j s s' seat seat' hi hj hs hs' heq
  exact h.registered.distinct (by simp [hi, hs]) (by simp [hj, hs']) heq

theorem Coordinated.boarded (h : Coordinated guard crew) (hi : crew[i]? = some s)
    (hs : s.seat? = some seat) :
    ∃ b, guard.boarding.get? seat.key = some b ∧ b.flight = seat.flight :=
  h.registered.boarded ((Coordinated.seats hi).trans (congrArg some hs))

theorem Coordinated.begun (h : Coordinated guard crew) (hi : crew[i]? = some s)
    (hs : s.seat? = some seat) : seat.flight < guard.flights.length := by
  obtain ⟨b, hb, hf⟩ := h.boarded hi hs
  exact hf ▸ h.registered.begun hb

theorem Coordinated.together (h : Coordinated guard crew) {i j : Nat} {stance stance' : Stance}
    {seat seat' : Seat} (hi : crew[i]? = some stance) (hs : stance.seat? = some seat)
    (hj : crew[j]? = some stance') (hs' : stance'.seat? = some seat')
    (hkey : seat.key = seat'.key) : seat.flight = seat'.flight := by
  obtain ⟨b, hb, hf⟩ := h.boarded hi hs
  obtain ⟨b', hb', hf'⟩ := h.boarded hj hs'
  rw [hkey, hb'] at hb
  cases hb
  exact hf.symm.trans hf'

/-- At most one task leads for a key. -/
theorem Coordinated.exclusive (h : Coordinated guard crew) {i j : Nat} {seat seat' : Seat}
    (hi : crew[i]? = some (.leading seat)) (hj : crew[j]? = some (.leading seat'))
    (hkey : seat.key = seat'.key) : i = j := by
  have hflight := h.together hi rfl hj rfl hkey
  have hl := ((h.piloted seat.flight).leads ⟨i, seat, hi, rfl, rfl⟩).2
  have hl' := ((h.piloted seat.flight).leads ⟨j, seat', hj, hflight.symm, rfl⟩).2
  exact h.distinct hi hj rfl rfl (Option.some.inj (hl.symm.trans hl'))

theorem Coordinated.leading_open (h : Coordinated guard crew) {i : Nat} {seat : Seat}
    (hi : crew[i]? = some (.leading seat)) : (guard.flight seat.flight).outcome = none :=
  ((h.piloted seat.flight).leads ⟨i, seat, hi, rfl, rfl⟩).1

theorem flight_setFlight {f : Flight} (hn : n < guard.flights.length) (m : Nat) :
    (guard.setFlight n f).flight m = if m = n then f else guard.flight m := by
  simp only [Flights.flight, Flights.setFlight, List.getElem?_set]
  by_cases hm : m = n
  · subst hm
    simp [hn]
  · simp [hm, Ne.symm hm]

theorem flight_join (guard : Flights) (key : String) (n : Nat) :
    (guard.join key).2.flight n = guard.flight n := by
  unfold Flights.join
  split
  · rfl
  · simp only [Flights.flight, List.getElem?_append]
    grind

/-- Who joins boards the flight of its key if there is one, and else a new one. -/
theorem join_flight (guard : Flights) (key : String) :
    (guard.join key).1.key = key ∧
    ((∃ b, guard.boarding.get? key = some b ∧ b.flight = (guard.join key).1.flight) ∨
      (guard.join key).1.flight = guard.flights.length) := by
  unfold Flights.join
  split
  · rename_i b hb
    exact ⟨rfl, .inl ⟨b, hb, rfl⟩⟩
  · exact ⟨rfl, .inr rfl⟩

/-- Only joining changes which flight a key boards, and flights are only added. -/
theorem join_boards {guard : Flights} {key key' : String} {b : Boarding}
    (hb : (guard.join key).2.boarding.get? key' = some b) :
    (∃ b', guard.boarding.get? key' = some b' ∧ b'.flight = b.flight) ∨
      (key' = key ∧ (guard.join key).1.flight = b.flight) := by
  unfold Flights.join at hb ⊢
  split at hb <;> simp only [Table.get?_insert] at hb ⊢ <;> split at hb
  · rename_i hkey
    cases hb
    exact .inr ⟨hkey.symm, rfl⟩
  · exact .inl ⟨b, hb, rfl⟩
  · rename_i hkey
    cases hb
    exact .inr ⟨hkey.symm, rfl⟩
  · exact .inl ⟨b, hb, rfl⟩

theorem join_length (guard : Flights) (key : String) :
    guard.flights.length ≤ (guard.join key).2.flights.length := by
  unfold Flights.join
  split <;> simp

theorem leave_boards {guard : Flights} {key : String} {b : Boarding}
    (hb : (guard.leave seat).boarding.get? key = some b) :
    ∃ b', guard.boarding.get? key = some b' ∧ b'.flight = b.flight := by
  unfold Flights.leave at hb
  split at hb
  · exact ⟨b, hb, rfl⟩
  · rename_i c hc
    simp only at hb
    split at hb
    · rw [Table.get?_erase] at hb
      split at hb
      · cases hb
      · exact ⟨b, hb, rfl⟩
    · rw [Table.get?_insert] at hb
      split at hb
      · rename_i hkey
        cases hb
        exact ⟨c, hkey ▸ hc, rfl⟩
      · exact ⟨b, hb, rfl⟩

theorem leave_length (guard : Flights) (seat : Seat) :
    (guard.leave seat).flights = guard.flights := by
  unfold Flights.leave
  split <;> rfl

theorem ask_boards (guard : Flights) (seat : Seat) :
    (guard.ask seat).2.boarding = guard.boarding ∧
      (guard.ask seat).2.flights.length = guard.flights.length := by
  simp only [Flights.ask]
  split
  · exact ⟨rfl, rfl⟩
  · split
    · exact ⟨rfl, by simp [Flights.setFlight]⟩
    · split
      · exact ⟨rfl, rfl⟩
      · split
        · exact ⟨rfl, rfl⟩
        · exact ⟨rfl, by simp [Flights.setFlight]⟩

theorem set_same {σ : Type} {xs : List σ} {x : σ} (hi : xs[i]? = some x) : xs.set i x = xs := by
  obtain ⟨hlt, hx⟩ := List.getElem?_eq_some_iff.mp hi
  exact hx ▸ List.set_getElem_self hlt

theorem set_stance (hi : crew[i]? = some s) {s' : Stance} (hs : s'.seat? = s.seat?) :
    (crew.set i s').map Stance.seat? = crew.map Stance.seat? := by
  rw [List.map_set, hs]
  exact set_same (Coordinated.seats hi)

/-- Only the flight of a task's seat and the task's own stance change, and the task stays on. -/
theorem Coordinated.change (h : Coordinated guard crew) (hi : crew[i]? = some s)
    (hs : s.seat? = some seat) {s' : Stance} (hs' : s'.seat? = some seat) {f : Flight}
    (hf : Piloted f (crew.set i s') seat.flight) :
    Coordinated (guard.setFlight seat.flight f) (crew.set i s') := by
  refine ⟨?_, fun n => ?_⟩
  · rw [set_stance hi (hs'.trans hs.symm)]
    exact h.registered.congr rfl (by simp [Flights.setFlight]) rfl
  · rw [flight_setFlight (h.begun hi hs)]
    split
    · rename_i hn
      exact hn ▸ hf
    · rename_i hn
      refine (h.piloted n).elsewhere hi ?_ ?_
      · intro seat' heq
        rw [hs] at heq
        cases heq
        exact Ne.symm hn
      · intro seat' heq
        rw [hs'] at heq
        cases heq
        exact Ne.symm hn

/-- Nobody is on board of any flight, in line for a lead or in possession of one. -/
structure Idle (guard : Flights) : Prop where
  empty (key : String) : guard.boarding.get? key = none
  leaderless (n : Nat) : (guard.flight n).leader = none ∧ (guard.flight n).waiting = []

theorem seats_outside (h : ∀ s ∈ crew, s = .outside) :
    ∀ place ∈ crew.map Stance.seat?, place = none := by
  intro place hp
  obtain ⟨s, hs, rfl⟩ := List.mem_map.mp hp
  rw [h s hs]
  rfl

theorem Coordinated.idle (hc : Coordinated guard crew) (h : ∀ s ∈ crew, s = .outside) :
    Idle guard := by
  constructor
  case empty =>
    intro key
    have hnobody : (crew.map Stance.seat?).countP (sitsFor key) = 0 := by
      rw [List.countP_eq_zero]
      intro place hp
      simp [seats_outside h place hp]
    simpa [hnobody] using hc.registered.aboard key
  case leaderless =>
    intro n
    have hl : (guard.flight n).leader = none := by
      cases hl : (guard.flight n).leader with
      | none => rfl
      | some t =>
        rcases ((hc.piloted n).led hl).2 with hw | hw
        · exact absurd hw (not_takes h fun _ => rfl)
        · exact absurd hw (not_takes h fun _ => rfl)
    exact ⟨hl, (hc.piloted n).free hl⟩

theorem coordinated_outside (h : ∀ s ∈ crew, s = .outside) :
    Coordinated guard crew ↔ Idle guard := by
  constructor
  · exact fun hc => hc.idle h
  · intro hidle
    refine ⟨registered_empty (seats_outside h) hidle.empty, fun n => ?_⟩
    obtain ⟨hl, hw⟩ := hidle.leaderless n
    exact piloted_outside h hl hw

theorem idle_new : Idle {} := ⟨fun _ => rfl, fun _ => ⟨rfl, rfl⟩⟩

theorem Coordinated.join (h : Coordinated guard crew) (hi : crew[i]? = some .outside)
    (key : String) :
    Coordinated (guard.join key).2 (crew.set i (.waiting (guard.join key).1)) := by
  refine ⟨?_, fun n => ?_⟩
  · rw [List.map_set]
    exact h.registered.join (Coordinated.seats hi) key
  · rw [flight_join]
    exact (h.piloted n).board h.distinct hi

theorem setFlight_self (hn : n < guard.flights.length) :
    guard.setFlight n (guard.flight n) = guard := by
  simp [Flights.setFlight, Flights.flight, hn]

theorem ask_lead {guard' : Flights} (hn : seat.flight < guard.flights.length)
    (h : guard.ask seat = (.lead, guard')) :
    (guard.flight seat.flight).outcome = none ∧
      ((guard.flight seat.flight).leader = none ∨
        (guard.flight seat.flight).leader = some seat.ticket) ∧
      guard' = guard.setFlight seat.flight
        { guard.flight seat.flight with leader := some seat.ticket } := by
  simp only [Flights.ask] at h
  split at h
  · cases h
  · rename_i ho
    split at h
    · rename_i hl
      cases h
      exact ⟨ho, .inl hl, rfl⟩
    · rename_i leader hl
      split at h
      · rename_i ht
        cases h
        refine ⟨ho, .inr (ht ▸ hl), ?_⟩
        rw [← ht, ← hl, setFlight_self hn]
      · split at h <;> cases h

theorem ask_wait {guard' : Flights} (h : guard.ask seat = (.wait, guard')) :
    (guard.flight seat.flight).leader ≠ none ∧
      (guard.flight seat.flight).leader ≠ some seat.ticket ∧
      (guard' = guard ∨ seat.ticket ∉ (guard.flight seat.flight).waiting ∧
        guard' = guard.setFlight seat.flight
          { guard.flight seat.flight with
            waiting := (guard.flight seat.flight).waiting ++ [seat.ticket] }) := by
  simp only [Flights.ask] at h
  split at h
  · cases h
  · split at h
    · cases h
    · rename_i leader hl
      split at h
      · cases h
      · rename_i ht
        refine ⟨by simp [hl], by simpa [hl] using ht, ?_⟩
        split at h <;> cases h
        · exact .inl rfl
        · exact .inr ⟨‹_›, rfl⟩

theorem ask_landed {guard' : Flights} {outcome : Outcome}
    (h : guard.ask seat = (.landed outcome, guard')) :
    (guard.flight seat.flight).outcome = some outcome ∧ guard' = guard := by
  simp only [Flights.ask] at h
  split at h
  · rename_i ho
    cases h
    exact ⟨ho, rfl⟩
  · split at h
    · cases h
    · split at h
      · cases h
      · split at h <;> cases h

theorem Coordinated.lead (h : Coordinated guard crew) (hi : crew[i]? = some (.waiting seat))
    {guard' : Flights} (hturn : guard.ask seat = (.lead, guard')) :
    Coordinated guard' (crew.set i (.leading seat)) := by
  obtain ⟨ho, hl, rfl⟩ := ask_lead (h.begun hi rfl) hturn
  exact h.change hi rfl rfl ((h.piloted _).lead h.distinct hi ho hl)

theorem Coordinated.lead_alone (h : Coordinated guard crew) (hi : crew[i]? = some (.waiting seat))
    {guard' : Flights} (hturn : guard.ask seat = (.lead, guard')) {j : Nat} {seat' : Seat}
    (hj : crew[j]? = some (.leading seat')) : seat'.key ≠ seat.key := by
  intro hkey
  have hne : i ≠ j := by
    rintro rfl
    rw [hi] at hj
    cases hj
  have hi' : (crew.set i (.leading seat))[i]? = some (.leading seat) := by
    simp [(List.getElem?_eq_some_iff.mp hi).1]
  have hj' : (crew.set i (.leading seat))[j]? = some (.leading seat') := by
    simp [hne, hj]
  exact hne ((h.lead hi hturn).exclusive hi' hj' hkey.symm)

theorem Coordinated.wait (h : Coordinated guard crew) (hi : crew[i]? = some (.waiting seat))
    {guard' : Flights} (hturn : guard.ask seat = (.wait, guard')) : Coordinated guard' crew := by
  obtain ⟨hl, hne, rfl | ⟨hq, rfl⟩⟩ := ask_wait hturn
  · exact h
  · have hself := set_same hi
    have hw := (h.piloted seat.flight).wait hi hl hne hq
    rw [← hself] at hw ⊢
    exact h.change hi rfl rfl hw

theorem Coordinated.turn (h : Coordinated guard crew) (hi : crew[i]? = some s)
    (hs : s.seat? = some seat) {s' : Stance} (hs' : s'.seat? = some seat)
    (hf : Piloted (guard.flight seat.flight) (crew.set i s') seat.flight) :
    Coordinated guard (crew.set i s') := by
  have hself := setFlight_self (h.begun hi hs)
  exact hself ▸ h.change hi hs hs' hf

theorem Coordinated.arrive (h : Coordinated guard crew) (hi : crew[i]? = some (.waiting seat))
    {guard' : Flights} {outcome : Outcome} (hturn : guard.ask seat = (.landed outcome, guard')) :
    Coordinated guard' (crew.set i (.landed seat)) := by
  obtain ⟨ho, rfl⟩ := ask_landed hturn
  exact h.turn hi rfl rfl ((h.piloted _).arrive h.distinct hi (by simp [ho]))

theorem Coordinated.land (h : Coordinated guard crew) (hi : crew[i]? = some (.leading seat))
    (outcome : Outcome) :
    Coordinated (guard.land seat outcome).2 (crew.set i (.landed seat)) :=
  h.change hi rfl rfl ((h.piloted _).land h.distinct hi outcome)

theorem flight_leave (guard : Flights) (seat : Seat) (n : Nat) :
    (guard.leave seat).flight n = guard.flight n := by
  unfold Flights.leave
  split <;> rfl

theorem Coordinated.go (h : Coordinated guard crew) (hi : crew[i]? = some s)
    (hs : s.seat? = some seat) {f : Flight} (hf : Piloted f (crew.set i .outside) seat.flight) :
    Coordinated ((guard.setFlight seat.flight f).leave seat) (crew.set i .outside) := by
  have hseat : (crew.map Stance.seat?)[i]? = some (some seat) := hs ▸ Coordinated.seats hi
  have hreg : Registered (guard.setFlight seat.flight f) (crew.map Stance.seat?) :=
    h.registered.congr rfl (by simp [Flights.setFlight]) rfl
  refine ⟨?_, fun n => ?_⟩
  · rw [List.map_set]
    exact hreg.leave hseat
  · rw [flight_leave, flight_setFlight (h.begun hi hs)]
    split
    · rename_i hn
      exact hn ▸ hf
    · rename_i hn
      refine (h.piloted n).elsewhere hi (fun seat' heq => ?_) (by simp [Stance.seat?])
      rw [hs] at heq
      cases heq
      exact Ne.symm hn

theorem Coordinated.leave (h : Coordinated guard crew) (hi : crew[i]? = some (.landed seat)) :
    Coordinated (guard.leave seat) (crew.set i .outside) := by
  have hself := setFlight_self (h.begun hi rfl)
  exact hself ▸ h.go hi rfl ((h.piloted _).leave h.distinct hi)

theorem giveUp_eq (guard : Flights) (seat : Seat) :
    (guard.giveUp seat).2 =
      guard.setFlight seat.flight (Flight.without (guard.flight seat.flight) seat.ticket) := by
  simp only [Flights.giveUp, Flight.without]
  split
  · split <;> simp_all
  · rfl

theorem Coordinated.drop (h : Coordinated guard crew) (hi : crew[i]? = some s) :
    Coordinated (giveUpSeat guard s) (crew.set i .outside) := by
  cases hs : s.seat? with
  | none =>
    cases s with
    | outside =>
      rw [set_same hi]
      exact h
    | _ => cases hs
  | some seat =>
    simp only [giveUpSeat, hs, giveUp_eq]
    exact h.go hi hs ((h.piloted _).giveUp h.distinct hi hs)

end

end StackedCache.Concurrency

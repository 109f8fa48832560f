import StackedCache.Proofs.Concurrency.System

/-!
# Seats and boardings

`Registered` says how the seats that the tasks hold fit with who is on board
for a key. Joining a flight and leaving it keep that.
-/

namespace StackedCache.Concurrency

def sitsFor (key : String) (place : Option Seat) : Bool := place.any (·.key == key)

@[simp] theorem sitsFor_none (key : String) : sitsFor key none = false := rfl

@[simp] theorem sitsFor_some (key : String) (seat : Seat) :
    sitsFor key (some seat) = (seat.key == key) := rfl

/-- The seats that the tasks hold, against the keys' boardings. -/
structure Registered (guard : Flights) (seats : List (Option Seat)) : Prop where
  /-- All tickets have been handed out, each to one task. -/
  ticketed {i : Nat} {seat : Seat} : seats[i]? = some (some seat) → seat.ticket < guard.tickets
  distinct {i j : Nat} {seat seat' : Seat} : seats[i]? = some (some seat) →
    seats[j]? = some (some seat') → seat.ticket = seat'.ticket → i = j
  boarded {i : Nat} {seat : Seat} : seats[i]? = some (some seat) →
    ∃ b, guard.boarding.get? seat.key = some b ∧ b.flight = seat.flight
  counted {key : String} {b : Boarding} : guard.boarding.get? key = some b →
    b.aboard = seats.countP (sitsFor key) ∧ 0 < b.aboard
  begun {key : String} {b : Boarding} : guard.boarding.get? key = some b →
    b.flight < guard.flights.length
  /-- No flight is boarded for two keys. -/
  separate {key key' : String} {b b' : Boarding} : guard.boarding.get? key = some b →
    guard.boarding.get? key' = some b' → b.flight = b'.flight → key = key'

section
variable {guard : Flights} {seats : List (Option Seat)} {i n : Nat} {key : String} {seat : Seat}
  {b : Boarding}

theorem Registered.empty (h : Registered guard seats) (hb : guard.boarding.get? key = none) :
    seats.countP (sitsFor key) = 0 := by
  rw [List.countP_eq_zero]
  intro place hp hsits
  obtain ⟨i, hi⟩ := List.getElem?_of_mem hp
  cases place with
  | none => simp at hsits
  | some seat =>
    obtain ⟨b, hb', -⟩ := h.boarded hi
    have hkey : seat.key = key := by simpa using hsits
    rw [hkey, hb] at hb'
    cases hb'

theorem registered_empty (h : ∀ place ∈ seats, place = none)
    (hb : ∀ key, guard.boarding.get? key = none) : Registered guard seats := by
  have hno {i : Nat} {seat : Seat} (hi : seats[i]? = some (some seat)) : False :=
    by simpa using h _ (List.mem_of_getElem? hi)
  constructor
  case ticketed => exact fun hi => (hno hi).elim
  case distinct => exact fun hi => (hno hi).elim
  case boarded => exact fun hi => (hno hi).elim
  case counted => exact fun hk => by simp [hb] at hk
  case begun => exact fun hk => by simp [hb] at hk
  case separate => exact fun hk => by simp [hb] at hk

theorem Registered.aboard (h : Registered guard seats) (key : String) :
    (guard.boarding.get? key).map Boarding.aboard =
      if seats.countP (sitsFor key) = 0 then none else some (seats.countP (sitsFor key)) := by
  cases hb : guard.boarding.get? key with
  | none => simp [h.empty hb]
  | some b =>
    obtain ⟨hcount, hpos⟩ := h.counted hb
    have hne : seats.countP (sitsFor key) ≠ 0 := by omega
    simp [hne, hcount]

theorem Registered.congr {guard' : Flights} (h : Registered guard seats)
    (hb : guard'.boarding = guard.boarding) (hn : guard'.flights.length = guard.flights.length)
    (ht : guard'.tickets = guard.tickets) : Registered guard' seats := by
  constructor
  case ticketed => exact fun hs => ht ▸ h.ticketed hs
  case distinct => exact h.distinct
  case boarded => exact fun hs => hb ▸ h.boarded hs
  case counted => exact fun hs => h.counted (hb ▸ hs)
  case begun => exact fun hs => hn ▸ h.begun (hb ▸ hs)
  case separate => exact fun hs hs' => h.separate (hb ▸ hs) (hb ▸ hs')

theorem countP_sit (hi : seats[i]? = some none) (seat : Seat) (key : String) :
    (seats.set i (some seat)).countP (sitsFor key) =
      seats.countP (sitsFor key) + if seat.key = key then 1 else 0 := by
  obtain ⟨hlt, hold⟩ := List.getElem?_eq_some_iff.mp hi
  simp [List.countP_set hlt, hold]

theorem countP_rise (hi : seats[i]? = some (some seat)) (key : String) :
    (seats.set i none).countP (sitsFor key) =
      seats.countP (sitsFor key) - if seat.key = key then 1 else 0 := by
  obtain ⟨hlt, hold⟩ := List.getElem?_eq_some_iff.mp hi
  simp [List.countP_set hlt, hold]

/-- Who joins gets the next ticket for a flight that is boarded for no other key. -/
theorem Registered.join_cases (h : Registered guard seats) (key : String) :
    ∃ flight,
      (guard.join key).1 = ⟨key, flight, guard.tickets⟩ ∧
      (guard.join key).2.boarding =
        guard.boarding.insert key ⟨flight, seats.countP (sitsFor key) + 1⟩ ∧
      (guard.join key).2.tickets = guard.tickets + 1 ∧
      guard.flights.length ≤ (guard.join key).2.flights.length ∧
      flight < (guard.join key).2.flights.length ∧
      (∀ b, guard.boarding.get? key = some b → b.flight = flight) ∧
      ∀ key' b, guard.boarding.get? key' = some b → b.flight = flight → key' = key := by
  unfold Flights.join
  cases hb : guard.boarding.get? key with
  | some b =>
    refine ⟨b.flight, rfl, ?_, rfl, Nat.le_refl _, h.begun hb, ?_, ?_⟩
    · rw [← (h.counted hb).1]
    · rintro b' hb'
      cases hb'
      rfl
    · exact fun key' b' hb' hf => h.separate hb' hb hf
  | none =>
    refine ⟨guard.flights.length, rfl, ?_, rfl, by simp, by simp, fun b hb' => by simp at hb', ?_⟩
    · rw [h.empty hb]
    · intro key' b hb' hf
      exact absurd hf (Nat.ne_of_lt (h.begun hb'))

theorem getElem?_set_cases {place new : Option Seat} {j : Nat} (hi : i < seats.length)
    (h : (seats.set i new)[j]? = some place) :
    (j = i ∧ place = new) ∨ (j ≠ i ∧ seats[j]? = some place) := by
  grind

theorem Registered.join (h : Registered guard seats) (hi : seats[i]? = some none) (key : String) :
    Registered (guard.join key).2 (seats.set i (some (guard.join key).1)) := by
  obtain ⟨hlt, -⟩ := List.getElem?_eq_some_iff.mp hi
  obtain ⟨flight, hseat, hb, ht, hlen, hflight, hsame, hsep⟩ := h.join_cases key
  have hget k : (guard.join key).2.boarding.get? k =
      if key = k then some ⟨flight, seats.countP (sitsFor key) + 1⟩ else guard.boarding.get? k := by
    rw [hb, Table.get?_insert]
  rw [hseat]
  constructor
  case ticketed =>
    intro j seat hj
    rw [ht]
    rcases getElem?_set_cases hlt hj with ⟨-, hs⟩ | ⟨-, hj⟩
    · cases hs
      exact Nat.lt_succ_self _
    · exact Nat.lt_succ_of_lt (h.ticketed hj)
  case distinct =>
    intro j j' seat seat' hj hj' heq
    rcases getElem?_set_cases hlt hj with ⟨hji, hs⟩ | ⟨-, hj⟩ <;>
      rcases getElem?_set_cases hlt hj' with ⟨hji', hs'⟩ | ⟨-, hj'⟩
    · exact hji.trans hji'.symm
    · cases hs
      exact absurd heq (Nat.ne_of_gt (h.ticketed hj'))
    · cases hs'
      exact absurd heq (Nat.ne_of_lt (h.ticketed hj))
    · exact h.distinct hj hj' heq
  case boarded =>
    intro j seat hj
    rw [hget]
    rcases getElem?_set_cases hlt hj with ⟨-, hs⟩ | ⟨-, hj⟩
    · cases hs
      exact ⟨_, if_pos rfl, rfl⟩
    · obtain ⟨b, hb', hf⟩ := h.boarded hj
      split
      · rename_i hk
        exact ⟨_, rfl, hf ▸ (hsame b (hk ▸ hb')).symm⟩
      · exact ⟨b, hb', hf⟩
  case counted =>
    intro k b hk
    rw [hget] at hk
    rw [countP_sit hi]
    split at hk
    · rename_i heq
      cases hk
      exact ⟨by simp [heq], Nat.succ_pos _⟩
    · rename_i hne
      rw [if_neg hne]
      exact h.counted hk
  case begun =>
    intro k b hk
    rw [hget] at hk
    split at hk
    · cases hk
      exact hflight
    · exact Nat.lt_of_lt_of_le (h.begun hk) hlen
  case separate =>
    intro k k' b b' hk hk' hf
    rw [hget] at hk hk'
    split at hk <;> split at hk'
    · rename_i h1 h2
      exact h1.symm.trans h2
    · rename_i h1 _
      cases hk
      exact h1.symm.trans (hsep k' b' hk' hf.symm).symm
    · rename_i _ h2
      cases hk'
      exact (hsep k b hk hf).trans h2
    · exact h.separate hk hk' hf

/-- Who leaves is taken off the boarding of its own flight, and the last one ends it. -/
theorem Registered.leave_cases (h : Registered guard seats) (hi : seats[i]? = some (some seat)) :
    ∃ b, guard.boarding.get? seat.key = some b ∧ b.flight = seat.flight ∧ 0 < b.aboard ∧
      (guard.leave seat).flights = guard.flights ∧ (guard.leave seat).tickets = guard.tickets ∧
      ∀ key, (guard.leave seat).boarding.get? key =
        if seat.key = key then
          if b.aboard = 1 then none else some ⟨b.flight, b.aboard - 1⟩
        else guard.boarding.get? key := by
  obtain ⟨b, hb, hf⟩ := h.boarded hi
  have hpos := (h.counted hb).2
  refine ⟨b, hb, hf, hpos, by simp [Flights.leave, hb], by simp [Flights.leave, hb], ?_⟩
  intro key
  simp only [Flights.leave, hb]
  by_cases h1 : b.aboard = 1
  · simp only [h1, Nat.sub_self, ↓reduceIte, Table.get?_erase, eq_comm (a := key)]
  · have h2 : b.aboard - 1 ≠ 0 := by omega
    simp only [h1, h2, ↓reduceIte, Table.get?_insert]

theorem Registered.leave (h : Registered guard seats) (hi : seats[i]? = some (some seat)) :
    Registered (guard.leave seat) (seats.set i none) := by
  obtain ⟨hlt, -⟩ := List.getElem?_eq_some_iff.mp hi
  obtain ⟨b, hb, hf, hpos, hflights, ht, hget⟩ := h.leave_cases hi
  have hkeep {j : Nat} {seat' : Seat} (hj : (seats.set i none)[j]? = some (some seat')) :
      j ≠ i ∧ seats[j]? = some (some seat') := by
    rcases getElem?_set_cases hlt hj with ⟨-, hs⟩ | hj
    · cases hs
    · exact hj
  have hbefore {k : String} {b' : Boarding} (hk : (guard.leave seat).boarding.get? k = some b') :
      ∃ c, guard.boarding.get? k = some c ∧ c.flight = b'.flight := by
    rw [hget] at hk
    split at hk
    · rename_i hkey
      split at hk
      · cases hk
      · cases hk
        exact ⟨b, hkey ▸ hb, rfl⟩
    · exact ⟨b', hk, rfl⟩
  constructor
  case ticketed => exact fun hj => ht ▸ h.ticketed (hkeep hj).2
  case distinct => exact fun hj hj' => h.distinct (hkeep hj).2 (hkeep hj').2
  case boarded =>
    intro j seat' hj
    obtain ⟨hne, hj⟩ := hkeep hj
    obtain ⟨b', hb', hf'⟩ := h.boarded hj
    rw [hget]
    split
    · rename_i hkey
      -- another task sits for the same key, so the boarding goes on
      have htwo : b.aboard ≠ 1 := by
        intro hone
        have hnobody : (seats.set i none).countP (sitsFor seat.key) = 0 := by
          rw [countP_rise hi, ← (h.counted hb).1, hone, if_pos rfl]
        rw [List.countP_eq_zero] at hnobody
        have hmem : some seat' ∈ seats.set i none :=
          List.mem_of_getElem? (i := j) (by rwa [List.getElem?_set_ne (Ne.symm hne)])
        simpa [hkey] using hnobody _ hmem
      rw [← hkey, hb] at hb'
      cases hb'
      exact ⟨_, if_neg htwo, hf'⟩
    · exact ⟨b', hb', hf'⟩
  case counted =>
    intro k b' hk
    rw [hget] at hk
    rw [countP_rise hi]
    split at hk
    · rename_i hkey
      subst hkey
      split at hk
      · cases hk
      · rename_i htwo
        cases hk
        rw [← (h.counted hb).1, if_pos rfl]
        exact ⟨rfl, by simp only; omega⟩
    · rename_i hkey
      rw [if_neg hkey]
      exact h.counted hk
  case begun =>
    intro k b' hk
    obtain ⟨c, hc, hcf⟩ := hbefore hk
    exact hflights ▸ hcf ▸ h.begun hc
  case separate =>
    intro k k' b' b'' hk hk' hff
    obtain ⟨c, hc, hcf⟩ := hbefore hk
    obtain ⟨c', hc', hcf'⟩ := hbefore hk'
    exact h.separate hc hc' (hcf.trans (hff.trans hcf'.symm))

end

end StackedCache.Concurrency

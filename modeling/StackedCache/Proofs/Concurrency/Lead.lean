import StackedCache.Proofs.Concurrency.System

/-!
# The lead of a flight

`Piloted` says how the lead of a flight and the line for it fit with where the
tasks stand. Each step of a flight keeps that, if the task that takes it stands
where the step belongs.
-/

namespace StackedCache.Concurrency

/-- A task takes a stance towards a flight, with a ticket. -/
def Takes (stance : Seat → Stance) (crew : List Stance) (n ticket : Nat) : Prop :=
  ∃ (i : Nat) (seat : Seat), crew[i]? = some (stance seat) ∧ seat.flight = n ∧ seat.ticket = ticket

abbrev Waits := Takes .waiting

abbrev Leads := Takes .leading

/-- The lead of a flight of a number, against where the tasks stand. -/
structure Piloted (f : Flight) (crew : List Stance) (n : Nat) : Prop where
  leads {ticket : Nat} : Leads crew n ticket → f.outcome = none ∧ f.leader = some ticket
  knows {i : Nat} {seat : Seat} : crew[i]? = some (.landed seat) → seat.flight = n →
    f.outcome ≠ none
  /-- Who has the lead is there to use it. -/
  led {ticket : Nat} : f.leader = some ticket →
    f.outcome = none ∧ (Waits crew n ticket ∨ Leads crew n ticket)
  /-- Nobody is in line for a free lead. -/
  free : f.leader = none → f.waiting = []
  queued {ticket : Nat} : ticket ∈ f.waiting → f.leader ≠ some ticket ∧ Waits crew n ticket
  ordered : f.waiting.Nodup

def Distinct (crew : List Stance) : Prop :=
  ∀ {i j : Nat} {s s' : Stance} {seat seat' : Seat}, crew[i]? = some s → crew[j]? = some s' →
    s.seat? = some seat → s'.seat? = some seat' → seat.ticket = seat'.ticket → i = j

section
variable {f : Flight} {crew : List Stance} {i n ticket : Nat} {seat : Seat} {s s' : Stance}
  {mk : Seat → Stance}

theorem Takes.stay (h : Takes mk crew n ticket) (hmk : ∀ seat, (mk seat).seat? = some seat)
    (hi : crew[i]? = some s) (hne : ∀ seat, s.seat? = some seat → seat.ticket ≠ ticket) :
    Takes mk (crew.set i s') n ticket := by
  obtain ⟨j, seat, hj, hn, ht⟩ := h
  have hij : i ≠ j := by
    rintro rfl
    rw [hi] at hj
    cases hj
    exact hne seat (hmk seat) ht
  exact ⟨j, seat, by rwa [List.getElem?_set_ne hij], hn, ht⟩

theorem Takes.before (h : Takes mk (crew.set i s') n ticket) (hd : Distinct crew)
    (hmk : ∀ seat, (mk seat).seat? = some seat) (hi : crew[i]? = some s) :
    (∃ seat, s' = mk seat ∧ seat.flight = n ∧ seat.ticket = ticket) ∨
    (Takes mk crew n ticket ∧ ∀ seat, s.seat? = some seat → seat.ticket ≠ ticket) := by
  obtain ⟨j, seat, hj, hn, ht⟩ := h
  obtain ⟨hlt, -⟩ := List.getElem?_eq_some_iff.mp hi
  by_cases hij : i = j
  · subst hij
    rw [List.getElem?_set_self hlt] at hj
    exact .inl ⟨seat, by simpa using hj, hn, ht⟩
  · rw [List.getElem?_set_ne hij] at hj
    refine .inr ⟨⟨j, seat, hj, hn, ht⟩, fun seat' hs heq => hij ?_⟩
    exact hd hi hj hs (hmk seat) (heq.trans ht.symm)

theorem Takes.now (hi : crew[i]? = some s) (mk : Seat → Stance) (seat : Seat) :
    Takes mk (crew.set i (mk seat)) seat.flight seat.ticket := by
  obtain ⟨hlt, -⟩ := List.getElem?_eq_some_iff.mp hi
  exact ⟨i, seat, List.getElem?_set_self hlt, rfl, rfl⟩

theorem landed_before {j : Nat} {seat' : Seat} (h : (crew.set i s')[j]? = some (.landed seat'))
    (hi : crew[i]? = some s) : s' = .landed seat' ∨ crew[j]? = some (.landed seat') := by
  obtain ⟨hlt, -⟩ := List.getElem?_eq_some_iff.mp hi
  by_cases hij : i = j
  · subst hij
    rw [List.getElem?_set_self hlt] at h
    exact .inl (by simpa using h)
  · rw [List.getElem?_set_ne hij] at h
    exact .inr h

theorem takes_set (hmk : ∀ seat, (mk seat).seat? = some seat) (hi : crew[i]? = some s)
    (hs : ∀ seat, s.seat? = some seat → seat.flight ≠ n)
    (hs' : ∀ seat, s'.seat? = some seat → seat.flight ≠ n) :
    Takes mk (crew.set i s') n ticket ↔ Takes mk crew n ticket := by
  obtain ⟨hlt, -⟩ := List.getElem?_eq_some_iff.mp hi
  constructor
  · rintro ⟨j, seat, hj, hn, ht⟩
    by_cases hij : i = j
    · subst hij
      rw [List.getElem?_set_self hlt] at hj
      cases hj
      exact absurd hn (hs' seat (hmk seat))
    · exact ⟨j, seat, by rwa [List.getElem?_set_ne hij] at hj, hn, ht⟩
  · rintro ⟨j, seat, hj, hn, ht⟩
    have hij : i ≠ j := by
      rintro rfl
      rw [hi] at hj
      cases hj
      exact hs seat (hmk seat) hn
    exact ⟨j, seat, by rwa [List.getElem?_set_ne hij], hn, ht⟩

theorem not_takes (h : ∀ s ∈ crew, s = .outside) (hmk : ∀ seat, (mk seat).seat? = some seat) :
    ¬Takes mk crew n ticket := by
  rintro ⟨i, seat, hi, -⟩
  have hs := hmk seat
  rw [h _ (List.mem_of_getElem? hi)] at hs
  cases hs

theorem piloted_outside (h : ∀ s ∈ crew, s = .outside) (hl : f.leader = none)
    (hw : f.waiting = []) : Piloted f crew n := by
  constructor
  case leads => exact fun ht => absurd ht (not_takes h fun _ => rfl)
  case knows => exact fun hi _ => by simpa using h _ (List.mem_of_getElem? hi)
  case led => exact fun ht => by simp [hl] at ht
  case free => exact fun _ => hw
  case queued => exact fun ht => by simp [hw] at ht
  case ordered => simp [hw]

theorem Piloted.elsewhere (h : Piloted f crew n) (hi : crew[i]? = some s)
    (hs : ∀ seat, s.seat? = some seat → seat.flight ≠ n)
    (hs' : ∀ seat, s'.seat? = some seat → seat.flight ≠ n) : Piloted f (crew.set i s') n := by
  have hwaits {t : Nat} : Waits (crew.set i s') n t ↔ Waits crew n t :=
    takes_set (fun _ => rfl) hi hs hs'
  have hleads {t : Nat} : Leads (crew.set i s') n t ↔ Leads crew n t :=
    takes_set (fun _ => rfl) hi hs hs'
  constructor
  case leads => exact fun hl => h.leads (hleads.mp hl)
  case knows =>
    intro j seat hj hn
    rcases landed_before hj hi with rfl | hj
    · exact absurd hn (hs' seat rfl)
    · exact h.knows hj hn
  case led =>
    intro t hl
    rw [hwaits, hleads]
    exact h.led hl
  case free => exact h.free
  case queued =>
    intro t hq
    rw [hwaits]
    exact h.queued hq
  case ordered => exact h.ordered

theorem Piloted.board (h : Piloted f crew n) (hd : Distinct crew) (hi : crew[i]? = some .outside) :
    Piloted f (crew.set i (.waiting seat)) n := by
  have hstay {mk : Seat → Stance} {t : Nat} (hmk : ∀ seat, (mk seat).seat? = some seat)
      (ht : Takes mk crew n t) : Takes mk (crew.set i (.waiting seat)) n t :=
    ht.stay hmk hi (by simp [Stance.seat?])
  constructor
  case leads =>
    intro t hl
    rcases hl.before hd (fun _ => rfl) hi with ⟨_, hs, -⟩ | ⟨hl, -⟩
    · cases hs
    · exact h.leads hl
  case knows =>
    intro j seat' hj hn
    rcases landed_before hj hi with hs | hj
    · cases hs
    · exact h.knows hj hn
  case led =>
    intro t hl
    obtain ⟨ho, hw | hl⟩ := h.led hl
    · exact ⟨ho, .inl (hstay (fun _ => rfl) hw)⟩
    · exact ⟨ho, .inr (hstay (fun _ => rfl) hl)⟩
  case free => exact h.free
  case queued => exact fun hq => ⟨(h.queued hq).1, hstay (fun _ => rfl) (h.queued hq).2⟩
  case ordered => exact h.ordered

theorem Piloted.lead (h : Piloted f crew seat.flight) (hd : Distinct crew)
    (hi : crew[i]? = some (.waiting seat)) (ho : f.outcome = none)
    (hl : f.leader = none ∨ f.leader = some seat.ticket) :
    Piloted { f with leader := some seat.ticket } (crew.set i (.leading seat)) seat.flight := by
  have hself {t : Nat} (hq : t ∈ f.waiting) : seat.ticket ≠ t := by
    rintro rfl
    rcases hl with hl | hl
    · simp [h.free hl] at hq
    · exact (h.queued hq).1 hl
  constructor
  case leads =>
    intro t hleads
    rcases hleads.before hd (fun _ => rfl) hi with ⟨_, hs, -, ht⟩ | ⟨hleads, hne⟩
    · cases hs
      exact ⟨ho, congrArg some ht⟩
    · rcases hl with hl | hl <;> rw [(h.leads hleads).2] at hl
      · cases hl
      · cases hl
        exact absurd rfl (hne seat rfl)
  case knows =>
    intro j seat' hj hn
    rcases landed_before hj hi with hs | hj
    · cases hs
    · exact h.knows hj hn
  case led =>
    intro t ht
    cases ht
    exact ⟨ho, .inr (Takes.now hi .leading seat)⟩
  case free => simp
  case queued =>
    intro t hq
    refine ⟨fun heq => hself hq (Option.some.inj heq), (h.queued hq).2.stay (fun _ => rfl) hi ?_⟩
    rintro _ ⟨⟩
    exact hself hq
  case ordered => exact h.ordered

theorem Piloted.wait (h : Piloted f crew seat.flight) (hi : crew[i]? = some (.waiting seat))
    (hl : f.leader ≠ none) (hne : f.leader ≠ some seat.ticket) (hq : seat.ticket ∉ f.waiting) :
    Piloted { f with waiting := f.waiting ++ [seat.ticket] } crew seat.flight := by
  constructor
  case leads => exact h.leads
  case knows => exact h.knows
  case led => exact h.led
  case free => exact fun hn => absurd hn hl
  case queued =>
    intro t ht
    rcases List.mem_append.mp ht with ht | ht
    · exact h.queued ht
    · rw [List.mem_singleton.mp ht]
      exact ⟨hne, i, seat, hi, rfl, rfl⟩
  case ordered =>
    refine List.nodup_append.mpr ⟨h.ordered, by simp, fun t ht t' ht' => ?_⟩
    rw [List.mem_singleton.mp ht']
    exact fun heq => hq (heq ▸ ht)

theorem Piloted.settled (h : Piloted f crew n) (ho : f.outcome ≠ none) :
    f.leader = none ∧ f.waiting = [] := by
  have hl : f.leader = none := by
    cases hl : f.leader with
    | none => rfl
    | some t => exact absurd (h.led hl).1 ho
  exact ⟨hl, h.free hl⟩

/-- Whoever is on a flight with an outcome may hear of it, and go. -/
theorem Piloted.turn (h : Piloted f crew n) (hd : Distinct crew) (hi : crew[i]? = some s)
    (ho : f.outcome ≠ none) (hs' : ∀ seat, s' ≠ .leading seat) : Piloted f (crew.set i s') n := by
  obtain ⟨hl, hw⟩ := h.settled ho
  constructor
  case leads =>
    intro t hleads
    rcases hleads.before hd (fun _ => rfl) hi with ⟨seat, hs, -⟩ | ⟨hleads, -⟩
    · exact absurd hs (hs' seat)
    · exact h.leads hleads
  case knows => exact fun _ _ => ho
  case led =>
    intro t ht
    rw [hl] at ht
    cases ht
  case free => exact h.free
  case queued =>
    intro t ht
    rw [hw] at ht
    cases ht
  case ordered => exact h.ordered

theorem Piloted.arrive (h : Piloted f crew seat.flight) (hd : Distinct crew)
    (hi : crew[i]? = some (.waiting seat)) (ho : f.outcome ≠ none) :
    Piloted f (crew.set i (.landed seat)) seat.flight :=
  h.turn hd hi ho (by simp)

theorem Piloted.land (h : Piloted f crew seat.flight) (hd : Distinct crew)
    (hi : crew[i]? = some (.leading seat)) (outcome : Outcome) :
    Piloted { outcome := some outcome } (crew.set i (.landed seat)) seat.flight := by
  have hl : f.leader = some seat.ticket := (h.leads ⟨i, seat, hi, rfl, rfl⟩).2
  constructor
  case leads =>
    intro t hleads
    rcases hleads.before hd (fun _ => rfl) hi with ⟨_, hs, -⟩ | ⟨hleads, hne⟩
    · cases hs
    · have ht := (h.leads hleads).2
      rw [hl] at ht
      cases ht
      exact absurd rfl (hne seat rfl)
  case knows => simp
  case led => simp
  case free => exact fun _ => rfl
  case queued => simp
  case ordered => exact List.nodup_nil

theorem Piloted.leave (h : Piloted f crew seat.flight) (hd : Distinct crew)
    (hi : crew[i]? = some (.landed seat)) : Piloted f (crew.set i .outside) seat.flight :=
  h.turn hd hi (h.knows hi rfl) (by simp)

def Flight.without (f : Flight) (ticket : Nat) : Flight :=
  if f.leader = some ticket then
    match f.waiting with
    | [] => { f with leader := none }
    | next :: rest => { f with leader := some next, waiting := rest }
  else { f with waiting := f.waiting.filter (· != ticket) }

theorem Flight.without_outcome (f : Flight) (ticket : Nat) :
    (Flight.without f ticket).outcome = f.outcome := by
  unfold Flight.without
  split
  · split <;> rfl
  · rfl

/-- A task that goes without an outcome passes the lead on or gets out of the line. -/
theorem Piloted.giveUp (h : Piloted f crew seat.flight) (hd : Distinct crew)
    (hi : crew[i]? = some s) (hs : s.seat? = some seat) :
    Piloted (Flight.without f seat.ticket) (crew.set i .outside) seat.flight := by
  have hstay {mk : Seat → Stance} {t : Nat} (hmk : ∀ seat, (mk seat).seat? = some seat)
      (ht : Takes mk crew seat.flight t) (hne : seat.ticket ≠ t) :
      Takes mk (crew.set i .outside) seat.flight t := by
    refine ht.stay hmk hi fun seat' hs' => ?_
    rw [hs] at hs'
    cases hs'
    exact hne
  have hbefore {t : Nat} (hl : Leads (crew.set i .outside) seat.flight t) :
      Leads crew seat.flight t ∧ seat.ticket ≠ t := by
    rcases hl.before hd (fun _ => rfl) hi with ⟨_, hs', -⟩ | ⟨hl, hne⟩
    · cases hs'
    · exact ⟨hl, hne seat hs⟩
  have hknows {j : Nat} {seat' : Seat} (hj : (crew.set i .outside)[j]? = some (.landed seat'))
      (hn : seat'.flight = seat.flight) : f.outcome ≠ none := by
    rcases landed_before hj hi with hs' | hj
    · cases hs'
    · exact h.knows hj hn
  unfold Flight.without
  split
  · rename_i hl
    have hno {t : Nat} (ht : Leads (crew.set i .outside) seat.flight t) : False := by
      obtain ⟨ht, hne⟩ := hbefore ht
      exact hne (Option.some.inj (hl.symm.trans (h.leads ht).2))
    split
    · rename_i hw
      exact ⟨fun ht => (hno ht).elim, hknows, by simp, fun _ => hw, by simp [hw], by simp [hw]⟩
    · rename_i next rest hw
      have hnext : next ∈ f.waiting := by simp [hw]
      have hnext := h.queued hnext
      have hord := hw ▸ h.ordered
      constructor
      case leads => exact fun ht => (hno ht).elim
      case knows => exact hknows
      case led =>
        intro t ht
        cases ht
        exact ⟨(h.led hl).1, .inl (hstay (fun _ => rfl) hnext.2 fun heq => hnext.1 (heq ▸ hl))⟩
      case free => simp
      case queued =>
        intro t ht
        have hmem : t ∈ f.waiting := hw ▸ List.mem_cons_of_mem _ ht
        have hq := h.queued hmem
        refine ⟨?_, hstay (fun _ => rfl) hq.2 fun heq => hq.1 (heq ▸ hl)⟩
        rintro ⟨⟩
        exact (List.nodup_cons.mp hord).1 ht
      case ordered => exact hord.of_cons
  · rename_i hl
    constructor
    case leads => exact fun ht => h.leads (hbefore ht).1
    case knows => exact hknows
    case led =>
      intro t ht
      have hne : seat.ticket ≠ t := fun heq => hl (heq ▸ ht)
      obtain ⟨ho, hw | hleads⟩ := h.led ht
      · exact ⟨ho, .inl (hstay (fun _ => rfl) hw hne)⟩
      · exact ⟨ho, .inr (hstay (fun _ => rfl) hleads hne)⟩
    case free => exact fun hn => by simp [h.free hn]
    case queued =>
      intro t ht
      obtain ⟨ht, hne⟩ := List.mem_filter.mp ht
      have hq := h.queued ht
      exact ⟨hq.1, hstay (fun _ => rfl) hq.2 fun heq => by simp [heq] at hne⟩
    case ordered => exact h.ordered.filter _

end

end StackedCache.Concurrency

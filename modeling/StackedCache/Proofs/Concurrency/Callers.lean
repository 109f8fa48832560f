import StackedCache.Proofs.Concurrency.Protocol

/-!
# Callers who share loads

The callers of a guard, each with a key and a load of its own, under every
order of their steps and with callers dropped wherever they wait. What a load
asks for is answered by the surroundings, so a load that calls the guard in its
turn waits for one more caller among the others.
-/

namespace StackedCache.Concurrency

variable {Loader α : Type}

def callers (calls : List (String × CacheProc Loader Outcome)) : List (CacheProc Loader Outcome) :=
  calls.map fun call => CacheProc.share call.1 call.2

def offFlights : Discipline (CacheCalls Loader) Unit where
  permits _ r := CacheRequest.onFlight r = false
  admits _ _ _ _ := True

def Plain (p : CacheProc Loader α) : Prop := p.Keeps offFlights (fun _ _ => True) ()

inductive Progress (Loader : Type) where
  | outside
  | waiting (seat : Seat)
  /-- The caller loads, and its load has come so far. -/
  | leading (seat : Seat) (exchanges : List (Exchange (CacheCalls Loader)))
  | landed (seat : Seat) (outcome : Outcome)
  | gone (seat : Seat) (outcome : Outcome)

def Progress.stance : Progress Loader → Stance
  | .outside | .gone .. => .outside
  | .waiting seat => .waiting seat
  | .leading seat _ => .leading seat
  | .landed seat _ => .landed seat

def sharing (key : String) (load : CacheProc Loader Outcome) :
    Discipline (CacheCalls Loader) (Progress Loader) where
  permits progress
    | .join key' => progress = .outside ∧ key' = key
    | .turn seat => progress = .waiting seat
    | .land seat outcome => ∃ exchanges, progress = .leading seat exchanges ∧
      load.Ends exchanges outcome
    | .leave seat => ∃ outcome, progress = .landed seat outcome
    | _ => ∃ seat exchanges, progress = .leading seat exchanges
  admits progress
    | .join _, seat, progress' => progress' = .waiting seat
    | .turn seat, some outcome, progress' => progress' = .landed seat outcome
    | .turn seat, none, progress' => progress' = .leading seat []
    | .land seat outcome, _, progress' => progress' = .landed seat outcome
    | .leave seat, _, progress' =>
      ∃ outcome, progress = .landed seat outcome ∧ progress' = .gone seat outcome
    | r, reply, progress' => ∃ seat exchanges, progress = .leading seat exchanges ∧
      progress' = .leading seat (exchanges ++ [⟨r, reply⟩])

/-- The caller has left its flight and answers with a copy of the outcome. -/
def Answered (progress : Progress Loader) (result : Outcome) : Prop :=
  ∃ seat outcome, progress = .gone seat outcome ∧ result = outcome.mapError (·.share)

def GoesOn (key : String) (load p : CacheProc Loader Outcome) (progress : Progress Loader) : Prop :=
  p.Keeps (sharing key load) Answered progress

section
variable {key : String} {load p : CacheProc Loader Outcome} {progress progress' : Progress Loader}
  {r : CacheRequest Loader} {reply : r.Reply} {seat : Seat}

theorem sharing_permits (hr : r.onFlight = false) :
    (sharing key load).permits progress r ↔
      ∃ seat exchanges, progress = .leading seat exchanges := by
  cases r <;> first | exact Iff.rfl | cases hr

theorem sharing_admits (hr : r.onFlight = false) :
    (sharing key load).admits progress r reply progress' ↔
      ∃ seat exchanges, progress = .leading seat exchanges ∧
        progress' = .leading seat (exchanges ++ [⟨r, reply⟩]) := by
  cases r <;> first | exact Iff.rfl | cases hr

theorem Plain.goesOn {exchanges : List (Exchange (CacheCalls Loader))} (h : Plain p)
    (hends : ∀ rest outcome, p.Ends rest outcome → load.Ends (exchanges ++ rest) outcome) :
    p.Keeps (sharing key load)
      (fun progress outcome => ∃ exchanges, progress = .leading seat exchanges ∧
        load.Ends exchanges outcome)
      (.leading seat exchanges) := by
  induction p generalizing exchanges with
  | done outcome => exact ⟨exchanges, rfl, by simpa using hends [] outcome (.done outcome)⟩
  | ask r next ih =>
    refine ⟨(sharing_permits h.1).mpr ⟨seat, exchanges, rfl⟩, fun reply progress' ha => ?_⟩
    obtain ⟨_, _, heq, rfl⟩ := (sharing_admits h.1).mp ha
    cases heq
    refine ih reply (h.2 reply () trivial) fun rest outcome ho => ?_
    rw [List.append_assoc]
    exact hends _ outcome (.ask ho)

theorem share_goesOn (h : Plain load) (key : String) :
    GoesOn key load (CacheProc.share key load) .outside := by
  refine ⟨⟨rfl, rfl⟩, fun seat progress hw => ?_⟩
  cases hw
  refine ⟨rfl, fun landed progress ha => ?_⟩
  cases landed with
  | some outcome =>
    cases ha
    refine ⟨⟨outcome, rfl⟩, fun _ progress hg => ?_⟩
    obtain ⟨outcome', hl, rfl⟩ := hg
    cases hl
    exact ⟨seat, outcome, rfl, rfl⟩
  | none =>
    cases ha
    refine (h.goesOn fun _ _ ho => ho).bind fun progress outcome hl => ?_
    refine ⟨hl, fun _ progress' ha => ?_⟩
    cases ha
    refine ⟨⟨outcome, rfl⟩, fun _ progress hg => ?_⟩
    obtain ⟨outcome', hl, rfl⟩ := hg
    cases hl
    exact ⟨seat, outcome, rfl, rfl⟩

/-- A call takes the steps of its flight in their order. -/
theorem GoesOn.follows (h : GoesOn key load p progress) : Follows progress.stance p := by
  refine Proc.Keeps.forget h ?_ ?_ ?_
  · intro progress r hp
    cases r with
    | join _ => exact hp.1 ▸ rfl
    | turn _ => exact hp ▸ rfl
    | land _ _ =>
      obtain ⟨_, rfl, -⟩ := hp
      rfl
    | leave _ =>
      obtain ⟨_, rfl⟩ := hp
      rfl
    | _ =>
      obtain ⟨seat, _, rfl⟩ := hp
      exact .inr ⟨seat, rfl⟩
  · intro progress r reply stance hp ha
    cases r with
    | join _ => exact ⟨.waiting reply, ha.2.symm, rfl⟩
    | turn seat =>
      cases reply with
      | none => exact ⟨.leading seat [], ha.symm, rfl⟩
      | some outcome => exact ⟨.landed seat outcome, ha.symm, rfl⟩
    | land seat outcome => exact ⟨.landed seat outcome, ha.symm, rfl⟩
    | leave seat =>
      obtain ⟨outcome, rfl⟩ := hp
      exact ⟨.gone seat outcome, ha.symm, outcome, rfl, rfl⟩
    | _ =>
      obtain ⟨seat, exchanges, rfl⟩ := hp
      exact ⟨.leading seat (exchanges ++ [⟨_, reply⟩]), ha.symm, seat, exchanges, rfl, rfl⟩
  · rintro progress result ⟨seat, outcome, rfl, -⟩
    rfl

end

theorem disciplined_callers {env : Surroundings Loader}
    {calls : List (String × CacheProc Loader Outcome)} (hplain : ∀ call ∈ calls, Plain call.2)
    (state : env.State) :
    (System.start state (callers calls) : System env Outcome).Disciplined := by
  refine System.disciplined_start state idle_new ?_
  intro p hp
  obtain ⟨call, hcall, rfl⟩ := List.mem_map.mp hp
  exact (share_goesOn (hplain call hcall) call.1).follows

-- ---------------------------------------------------------------------------
-- Callers to look at
-- ---------------------------------------------------------------------------

/-- Surroundings that give any reply and never change by themselves. -/
def anything (Loader : Type) : Surroundings Loader where
  State := Unit
  answers _ _ _ _ := True
  drifts _ _ := False

def calling (key : String) (loader : Nat) : String × CacheProc Nat Outcome :=
  (key, do
    let loaded ← CacheProc.load loader
    pure (loaded.map Loaded.value))

def twoCalls : List (String × CacheProc Nat Outcome) := [calling "k" 0, calling "k" 1]

theorem twoCalls_plain : ∀ call ∈ twoCalls, Plain call.2 := by
  intro call hcall
  simp only [twoCalls, List.mem_cons, List.not_mem_nil, or_false] at hcall
  rcases hcall with rfl | rfl <;> exact ⟨rfl, fun _ _ _ => trivial⟩

def twoCallers : System (anything Nat) Outcome := System.start () (callers twoCalls)

end StackedCache.Concurrency

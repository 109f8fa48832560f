import Mathlib.Logic.Function.Iterate
import StackedCache.Proofs.Concurrency.Outcomes
import StackedCache.Proofs.LoaderErrors

/-!
# Errors that are handed on

A load may fail with an error that another flight has handed to it, and hands it
on in its turn. What is lost of an error is lost on the first flight: copies of
a copy all read the same.
-/

namespace StackedCache

namespace CacheError

variable {e copy error : CacheError}

theorem ReadsAs.trans (h : copy.ReadsAs error) (h' : error.ReadsAs e) : copy.ReadsAs e where
  kind := h.kind.trans h'.kind
  message := h.message.trans h'.message
  causes := h.causes.trans h'.causes
  isNotFound := h.isNotFound.trans h'.isNotFound
  isBackend := h.isBackend.trans h'.isBackend

/-- A layer's error has no causes left that a copy of the copy could lose. -/
theorem share_not_lossy (e : CacheError) : ¬e.share.Lossy := by
  cases e with
  | backend layer error =>
    rintro (_ | ⟨_, hcauses⟩)
    exact hcauses rfl
  | _ => nofun

theorem iterate_share_readsAs (e : CacheError) (n : Nat) : (share^[n + 1] e).ReadsAs e.share := by
  induction n with
  | zero => exact .refl _
  | succ n ih =>
    rw [Function.iterate_succ_apply'] at ih ⊢
    have hagain := (share_readsAs_iff _).mpr (share_not_lossy (share^[n] e))
    rw [Function.iterate_succ_apply']
    exact hagain.trans ih

/-- What a caller sees of an error in its copy. -/
structure Survives (e copy : CacheError) : Prop where
  isBackend : copy.isBackend = e.isBackend
  /-- The causes that are errors of the outside world are kept, but not beyond a layer's own error. -/
  causes : e.kind = .notFound ∨ e.kind = .timeout ∨ e.kind = .config ∨ e.kind = .loader →
    copy.causes = e.causes
  backend (layer : String) (error : Failure) : e = .backend layer error → copy.causes = [error.message]
  kept : e.kind ≠ .codec →
    copy.kind = e.kind ∧ copy.message = e.message ∧ copy.isNotFound = e.isNotFound
  /-- As the error of a loader, a codec error is of the not-found class if its text says so. -/
  codec : e.kind = .codec →
    copy.kind = .loader ∧ copy.message = "loader failed: " ++ e.message ∧ copy.causes = e.message :: e.causes ∧
      e.isNotFound = false ∧ copy.isNotFound = mentions "not found".toList (e.message.toList.map Char.toLower)

theorem survives_share (e : CacheError) : e.Survives e.share := by
  cases e with
  | notFound => exact ⟨rfl, fun _ => rfl, nofun, fun _ => ⟨rfl, rfl, rfl⟩, nofun⟩
  | timeout layer after => exact ⟨rfl, fun _ => rfl, nofun, fun _ => ⟨rfl, rfl, rfl⟩, nofun⟩
  | config reason => exact ⟨rfl, fun _ => rfl, nofun, fun _ => ⟨rfl, rfl, rfl⟩, nofun⟩
  | loader error => exact ⟨rfl, fun _ => rfl, nofun, fun _ => ⟨rfl, rfl, rfl⟩, nofun⟩
  | codec error => exact ⟨rfl, nofun, nofun, fun h => absurd rfl h, fun _ => ⟨rfl, rfl, rfl, rfl, rfl⟩⟩
  | backend layer error =>
    refine ⟨rfl, nofun, ?_, fun _ => ⟨rfl, rfl, rfl⟩, nofun⟩
    rintro _ _ ⟨⟩
    rfl

end CacheError

namespace Concurrency

-- ---------------------------------------------------------------------------
-- Through one flight
-- ---------------------------------------------------------------------------

/-- In some run of callers of a guard, one lands its flight with the first error after its own load has
failed with it, and one who is on that flight, the same or another, returns with the second. -/
inductive Hands (e copy : CacheError) : Prop
  | flight {Loader : Type} {env : Surroundings Loader} {calls : List (String × CacheProc Loader Outcome)}
    {state : env.State} {trace : List (Event Loader)} {s : System env Outcome} {i j : Nat}
    {seat seat' : Seat} {load : CacheProc Loader Outcome} {task : Task Loader Outcome}
    (hplain : ∀ call ∈ calls, Plain call.2)
    (hrun : Run System.Step (System.start state (callers calls)) trace s)
    (hcall : calls[j]? = some (seat'.key, load)) (hends : load.Ends (exchanges j trace) (.error e))
    (hlanded : .landed j seat' (.error e) ∈ trace) (hflight : seat'.flight = seat.flight)
    (hjoined : .joined i seat ∈ trace) (htask : s.tasks[i]? = some task)
    (hresult : task.result? = some (.error copy))

theorem Hands.eq {e copy : CacheError} (h : Hands e copy) : copy = e.share := by
  obtain ⟨hplain, hrun, -, -, hlanded, hflight, hjoined, htask, hresult⟩ := h
  obtain ⟨-, haccounts⟩ := accounted_run hplain hrun
  obtain ⟨⟨key, load⟩, hcall, -⟩ := haccounts.callers _ _ htask
  obtain ⟨seat, outcome, hj, -, hout, hanswer⟩ := haccounts.returned hcall htask hresult
  obtain rfl := (hj _).mp hjoined
  have hsame := haccounts.flights.landing hlanded
  rw [hflight, hout] at hsame
  cases hsame
  cases hanswer
  rfl

def failing (e : CacheError) : String × CacheProc Unit Outcome := ("k", pure (.error e))

theorem failing_run (e : CacheError) :
    ∃ s : System (anything Unit) Outcome,
      Run System.Step (System.start () (callers [failing e]))
        [.joined 0 ⟨"k", 0, 0⟩, .led 0 ⟨"k", 0, 0⟩, .landed 0 ⟨"k", 0, 0⟩ (.error e), .left 0 ⟨"k", 0, 0⟩] s ∧
      (s.tasks[0]?.bind Task.result?) = some (.error e.share) := by
  have hstart : Run System.Step
      (System.start () (callers [failing e]) : System (anything Unit) Outcome) [] _ := .refl
  have hrun := hstart.snoc (.join (i := 0) rfl) |>.snoc (.lead (i := 0) rfl rfl)
    |>.snoc (.land (i := 0) rfl) |>.snoc (.leave (i := 0) rfl)
  exact ⟨_, hrun, rfl⟩

theorem hands_share (e : CacheError) : Hands e e.share := by
  have hplain : ∀ call ∈ [failing e], Plain call.2 := List.forall_mem_singleton.mpr trivial
  obtain ⟨s, hrun, hresult⟩ := failing_run e
  obtain ⟨task, htask, hresult⟩ := Option.bind_eq_some_iff.mp hresult
  have hlanded : .landed 0 ⟨"k", 0, 0⟩ (.error e) ∈ [.joined 0 ⟨"k", 0, 0⟩, .led 0 ⟨"k", 0, 0⟩,
      .landed 0 ⟨"k", 0, 0⟩ (.error e), (.left 0 ⟨"k", 0, 0⟩ : Event Unit)] := by
    simp
  exact .flight hplain hrun rfl (.done _) hlanded rfl List.mem_cons_self htask hresult

-- ---------------------------------------------------------------------------
-- Through several flights
-- ---------------------------------------------------------------------------

/-- What comes out of so many flights in turn, each landed with what came out of the one before. -/
inductive Handed (e : CacheError) : Nat → CacheError → Prop
  | start : Handed e 0 e
  | flight {n : Nat} {error copy : CacheError} (h : Handed e n error) (hhands : Hands error copy) :
    Handed e (n + 1) copy

theorem handed_iff {e copy : CacheError} {n : Nat} :
    Handed e n copy ↔ copy = CacheError.share^[n] e := by
  induction n generalizing copy with
  | zero =>
    refine ⟨fun h => ?_, fun h => h ▸ .start⟩
    cases h
    rfl
  | succ n ih =>
    rw [Function.iterate_succ_apply']
    refine ⟨fun h => ?_, fun h => h ▸ .flight (ih.mpr rfl) (hands_share _)⟩
    cases h with
    | flight h hhands => rw [hhands.eq, ih.mp h]

/-- An error passes through any number of flights, and what comes out of them, however many, reads as
what has come out of the first. Only there something is lost: of a layer's error the causes beyond the
layer's own, and of a codec error that it is one. -/
theorem handed_errors_stable (e : CacheError) :
    (∀ n, ∃ copy, Handed e n copy) ∧
    (∀ n copy first, Handed e (n + 1) copy → Hands e first → copy.ReadsAs first) ∧
    ∀ first, Hands e first → e.Survives first := by
  refine ⟨fun n => ⟨_, handed_iff.mpr rfl⟩, ?_, ?_⟩
  · intro n copy first hcopy hfirst
    rw [handed_iff.mp hcopy, hfirst.eq]
    exact e.iterate_share_readsAs n
  · intro first hfirst
    rw [hfirst.eq]
    exact e.survives_share

/-- A codec error joins the not-found class on its first flight, and is still there after the second,
with one cause more. -/
theorem handed_errors_stable_codec : ∃ copy,
    Handed (.codec ⟨.decode, ⟨"not found", ["end of file"]⟩⟩) 2 copy ∧
      copy.isNotFound = true ∧
      CacheError.isNotFound (.codec ⟨.decode, ⟨"not found", ["end of file"]⟩⟩) = false ∧
      copy.message = "loader failed: failed to encode cache record: record payload is corrupt: not found" ∧
      copy.causes = ["failed to encode cache record: record payload is corrupt: not found",
        "record payload is corrupt: not found", "not found", "end of file"] := by
  obtain ⟨hexists, hstable, -⟩ :=
    handed_errors_stable (.codec ⟨.decode, ⟨"not found", ["end of file"]⟩⟩)
  obtain ⟨copy, hcopy⟩ := hexists 2
  have hsame := hstable 1 copy _ hcopy (hands_share _)
  exact ⟨copy, hcopy, hsame.isNotFound.trans (by decide), rfl, hsame.message.trans (by decide),
    hsame.causes.trans (by decide)⟩

end Concurrency

end StackedCache

import StackedCache.Proofs.BatchAccounts
import StackedCache.Proofs.Concurrency.Faults

/-!
# Visits

One call comes after the other, each at one instant, over layers that may fail.
A visit is such a call with all that it has exchanged with its surroundings.
What it is told of a key, before it touches the key, is what the layers have
had when it came.
-/

namespace StackedCache

open Simulation Concurrency

def CacheRequest.ttl? {Loader : Type} : CacheRequest Loader → Option Duration
  | .layer _ (.set _ _ ttl) | .layer _ (.mset _ ttl) => some ttl
  | _ => none

structure Visit where
  now : Instant
  work : Work
  told : List CacheExchange
  answer : Answer

namespace Concurrency.Place

inductive Undergoes : Place → List CacheExchange → Place → Prop
  | nil {place : Place} : Undergoes place [] place
  | cons {place mid after : Place} {r : CacheRequest ScriptedLoader} {reply : r.Reply}
    {rest : List CacheExchange} (h : place.tolerates r reply mid) (hrest : Undergoes mid rest after) :
    Undergoes place (⟨r, reply⟩ :: rest) after

end Concurrency.Place

inductive Course (stack : Stack) (start : Concurrency.Place) : List Visit → Concurrency.Place → Prop
  | start : Course stack start [] start
  | call {visits : List Visit} {place after : Concurrency.Place} {work : Work}
    {told : List CacheExchange} {answer : Answer} (h : Course stack start visits place)
    (hends : (Session.cacheWork (.stacked stack) work).Ends told answer)
    (htold : place.Undergoes told after) :
    Course stack start (visits ++ [⟨place.now, work, told, answer⟩]) after
  | stray {visits : List Visit} {place after : Concurrency.Place} (h : Course stack start visits place)
    (hs : place.strays after) : Course stack start visits after

theorem LayerOp.Puts.ttl_eq {op : LayerOp} {key : String} {payload : Bytes} {ttl : Duration}
    (h : op.Puts key payload ttl) (slot : Nat) :
    (CacheRequest.layer slot op : CacheRequest ScriptedLoader).ttl? = some ttl := by
  cases h <;> rfl

section
variable {stack : Stack} {start place : Concurrency.Place} {visits : List Visit}

theorem Course.pass (h : Course stack start visits place) (nanos : Nat)
    (hclock : place.now + nanos < Instant.horizon) :
    Course stack start visits { place with now := place.now + nanos } :=
  h.stray (.inl (.inl ⟨Nat.le_add_right .., hclock, rfl⟩))

theorem Course.clear (h : Course stack start visits place) (n : Nat) :
    Course stack start visits { place with storage := place.storage.clear n } :=
  h.stray (.inr ⟨n, rfl⟩)

end

section
variable {place mid after : Concurrency.Place} {told seen rest : List CacheExchange}

namespace Concurrency.Place.Undergoes

theorem now_eq (h : place.Undergoes told after) : after.now = place.now := by
  induction h with
  | nil => rfl
  | cons h _ ih => exact ih.trans (tolerates_now h)

theorem home_eq (h : place.Undergoes told after) (slot : Nat) :
    after.storage.home slot = place.storage.home slot := by
  induction h with
  | nil => rfl
  | cons h _ ih => exact ih.trans (tolerates_home h slot)

theorem split (h : place.Undergoes (seen ++ rest) after) :
    ∃ mid, place.Undergoes seen mid ∧ mid.Undergoes rest after := by
  induction seen generalizing place with
  | nil => exact ⟨place, .nil, h⟩
  | cons e seen ih =>
    cases h with
    | cons h hrest =>
      obtain ⟨mid, hseen, hrest⟩ := ih hrest
      exact ⟨mid, .cons h hseen, hrest⟩

theorem snoc (h : place.Undergoes seen mid) {r : CacheRequest ScriptedLoader} {reply : r.Reply}
    (ha : mid.tolerates r reply after) : place.Undergoes (seen ++ [⟨r, reply⟩]) after := by
  induction h with
  | nil => exact .cons ha .nil
  | cons h _ ih => exact .cons h (ih ha)

/-- As long as a key is untouched, what is told of it is what is seen at the beginning. -/
theorem fetched (h : place.Undergoes told after) (hclock : place.now < Instant.horizon)
    {key : String} (huntouched : Untouched key told) {e : CacheExchange} (he : e ∈ told) {slot : Nat}
    {found : Option Bytes} (hfetches : Fetches e slot key found) : place.shown slot key = found := by
  induction h with
  | nil => cases he
  | @cons place mid after r reply rest h _ ih =>
    obtain ⟨hfirst, hrest⟩ := List.forall_mem_cons.mp huntouched
    rcases List.mem_cons.mp he with rfl | he
    · exact tolerates_fetches hclock h hfetches
    · rw [← tolerates_shown hclock h hfirst slot]
      exact ih (tolerates_now h ▸ hclock) hrest he

variable {stack : Stack} {work : Work} {key : String} {payload : Bytes} {above : List Tier}

theorem sighted (h : place.Undergoes told after) (hclock : place.now < Instant.horizon)
    (hs : Sighted stack told key payload above) :
    ∃ lower below, stack.tiers = above ++ lower :: below ∧
      place.shown lower.slot key = some payload ∧
      ∀ tier ∈ above, ∀ value,
        (place.shown tier.slot key).bind Record.decode ≠ some (.positive value) := by
  obtain ⟨lower, below, seen, htiers, ⟨rest, rfl⟩, hscan, e, he, hfetches⟩ := hs
  obtain ⟨mid, hseen, -⟩ := h.split
  refine ⟨lower, below, htiers, hseen.fetched hclock hscan.untouched he hfetches, fun tier ht => ?_⟩
  obtain ⟨e', he', found, hfound, hnone⟩ := hscan.passed ht
  rw [hseen.fetched hclock hscan.untouched he' hfound]
  exact hnone

theorem accounted {α : Type} {p : CacheProc ScriptedLoader α} {post : Account → α → Prop}
    {now : Account} {a : α} (h : place.Undergoes told after)
    (hkeeps : p.Keeps (accounting stack work) post now) (hends : p.Ends told a) :
    (∀ {seen rest : List CacheExchange} {e : CacheExchange}, told = seen ++ e :: rest →
      Accountable stack (now.told ++ seen) work e.1) ∧
    ∃ stance, post ⟨now.told ++ told, stance⟩ a := by
  induction hends generalizing place now with
  | done a =>
    have hpost : post now a := hkeeps
    exact ⟨by simp, now.stance, by simpa using hpost⟩
  | @ask r next reply told a _ ih =>
    cases h with
    | cons hreply hrest =>
      obtain ⟨⟨-, hfirst⟩, hnext⟩ := hkeeps
      have hstance : ∃ stance, flightProtocol.admits now.stance r reply stance := by
        cases r with
        | join key => exact ⟨_, hreply.1, rfl⟩
        | _ => exact ⟨_, rfl⟩
      obtain ⟨stance, hstance⟩ := hstance
      obtain ⟨hlater, stance', hpost⟩ :=
        ih hrest (hnext reply ⟨now.told ++ [⟨r, reply⟩], stance⟩ ⟨hstance, rfl⟩)
      refine ⟨fun {seen rest e} heq => ?_, stance', by simpa using hpost⟩
      cases seen with
      | nil =>
        cases heq
        simpa using hfirst
      | cons e' seen =>
        cases heq
        simpa using hlater rfl

end Concurrency.Place.Undergoes

end

end StackedCache

import StackedCache.Proofs.BatchAccounts
import StackedCache.Proofs.Concurrency.Keywise
import StackedCache.Proofs.Holdings

/-!
# What tasks know of keys

The exchanges of a call are not all there is to tell where contents come from:
a layer has what other calls have written. So each task has a ledger of what is
known of the keys, which grows with what anybody learns. An accountable call
writes nothing else, if only its layers and flights hand out what is known.
-/

namespace StackedCache.Concurrency

open Simulation CacheProc

abbrev Knowledge : Type := String → Option Bytes → Prop

def Vouched (known : Knowledge) (key : String) (payload : Bytes) : Prop :=
  ∀ record, Record.decode payload = some record → known key record.content

structure Ledger where
  known : Knowledge
  stance : Stance

section
variable (stack : Stack) (work : Work) (known : Knowledge)

def Warranted : CacheRequest ScriptedLoader → Prop
  | .layer _ op =>
    ∀ key payload ttl, op.Puts (stack.fullKey key) payload ttl → Vouched known key payload
  | .land seat outcome =>
    ∀ key value, seat.key = stack.fullKey key → outcome = .ok value → known key (some value)
  | _ => True

structure Heard (e : CacheExchange) : Prop where
  learned {key : String} {content : Option Bytes} : Learned work e key content → known key content
  found {tier : Tier} {key : String} {payload : Bytes} : tier ∈ stack.tiers →
    Fetches e tier.slot (stack.fullKey key) (some payload) → Vouched known key payload
  shared {seat : Seat} {key : String} {value : Bytes} : e = ⟨.turn seat, some (.ok value)⟩ →
    seat.key = stack.fullKey key → known key (some value)

/-- All that is written or landed is known, and all that is told will be. -/
def sourcing : Discipline (CacheCalls ScriptedLoader) Ledger where
  permits now r := flightProtocol.permits now.stance r ∧ Warranted stack now.known r
  admits now r reply later := flightProtocol.admits now.stance r reply later.stance ∧
    (∀ key content, now.known key content → later.known key content) ∧
    Heard stack work later.known ⟨r, reply⟩

def AnswersKnown (later : Ledger) (answer : Answer) : Prop :=
  later.stance = .outside ∧ ∀ key content, Tells work answer key content → later.known key content

end

section
variable {stack : Stack} {work : Work} {known known' : Knowledge} {key : String} {payload : Bytes}

theorem Vouched.mono (h : Vouched known key payload)
    (hle : ∀ key content, known key content → known' key content) : Vouched known' key payload :=
  fun record hdecode => hle key _ (h record hdecode)

theorem Heard.mono {e : CacheExchange} (h : Heard stack work known e)
    (hle : ∀ key content, known key content → known' key content) : Heard stack work known' e :=
  ⟨fun hl => hle _ _ (h.learned hl), fun ht hf => (h.found ht hf).mono hle,
    fun he hkey => hle _ _ (h.shared he hkey)⟩

theorem Warranted.mono {r : CacheRequest ScriptedLoader} (h : Warranted stack known r)
    (hle : ∀ key content, known key content → known' key content) : Warranted stack known' r := by
  cases r with
  | layer slot op => exact fun key payload ttl hputs => (h key payload ttl hputs).mono hle
  | land seat outcome => exact fun key value hseat hvalue => hle _ _ (h key value hseat hvalue)
  | _ => trivial

/-- A call that goes on when more is known goes on as before. -/
theorem keeps_knowing {p : CacheProc ScriptedLoader Answer} {stance : Stance}
    (h : p.Keeps (sourcing stack work) (AnswersKnown work) ⟨known, stance⟩)
    (hle : ∀ key content, known key content → known' key content) :
    p.Keeps (sourcing stack work) (AnswersKnown work) ⟨known', stance⟩ := by
  refine h.informed ?_ ?_ ?_
  · exact fun r hpermits => ⟨hpermits.1, hpermits.2.mono hle⟩
  · rintro r reply later ⟨hprotocol, hgrown, hheard⟩
    exact ⟨hprotocol, fun key content hk => hgrown key content (hle key content hk), hheard⟩
  · exact fun answer hanswer => ⟨hanswer.1, fun key content htells => hle _ _ (hanswer.2 _ _ htells)⟩

theorem heard_layer {slot : Nat} {op : LayerOp} {reply : op.Reply}
    (h : ∀ {tier : Tier} {key : String} {payload : Bytes}, tier ∈ stack.tiers →
      Fetches ⟨.layer slot op, reply⟩ tier.slot (stack.fullKey key) (some payload) →
      Vouched known key payload) : Heard stack work known ⟨.layer slot op, reply⟩ :=
  ⟨fun hl => (nomatch hl), h, fun he => (nomatch he)⟩

theorem heard_onFlight {r : CacheRequest ScriptedLoader} {reply : r.Reply} (hr : r.onFlight = true)
    (h : ∀ {seat : Seat} {key : String} {value : Bytes},
      (⟨r, reply⟩ : CacheExchange) = ⟨.turn seat, some (.ok value)⟩ → seat.key = stack.fullKey key →
      known key (some value)) : Heard stack work known ⟨r, reply⟩ := by
  refine ⟨fun hl => ?_, fun _ hf => ?_, h⟩
  · cases hl <;> cases hr
  · cases r <;> first | cases hf | cases hr

end

-- ---------------------------------------------------------------------------
-- From accounts to ledgers
-- ---------------------------------------------------------------------------

structure Ledger.Covers (stack : Stack) (work : Work) (account : Account) (now : Ledger) : Prop where
  stance : account.stance = now.stance
  given {key : String} {content : Option Bytes} : Given work key content → now.known key content
  told {e : CacheExchange} : e ∈ account.told → Heard stack work now.known e

section
variable {stack : Stack} {work : Work} {account : Account} {now : Ledger} {key : String}
  {payload : Bytes} {content : Option Bytes}

namespace Ledger.Covers

theorem sighted (h : now.Covers stack work account) {above : List Tier}
    (hs : Sighted stack account.told (stack.fullKey key) payload above) :
    Vouched now.known key payload := by
  obtain ⟨lower, below, seen, htiers, hseen, -, e, he, hfinds⟩ := hs
  exact (h.told (hseen.mem he)).found (by simp [htiers]) hfinds

theorem brought (h : now.Covers stack work account) (hb : Brought account.told work key content) :
    now.known key content := by
  rcases hb with hgiven | ⟨e, he, hlearned⟩
  · exact h.given hgiven
  · exact (h.told he).learned hlearned

theorem obtained (h : now.Covers stack work account)
    (ho : Obtained stack account.told work key content) : now.known key content := by
  cases ho with
  | sighted hs hdecode => exact h.sighted hs _ hdecode
  | shared _ hseat htold => exact (h.told htold).shared rfl hseat
  | learned he hlearned => exact (h.told he).learned hlearned

theorem justified (h : now.Covers stack work account) {slot : Nat} {ttl : Duration}
    (ha : Justified stack account.told work slot (stack.fullKey key) payload ttl) :
    Vouched now.known key payload := by
  generalize hfull : stack.fullKey key = full at ha
  cases ha with
  | brought hb _ =>
    obtain rfl := Stack.fullKey_inj.mp hfull
    intro record hdecode
    rw [Record.content_of_payloadOf hdecode]
    exact h.brought hb
  | copied hs _ _ => exact h.sighted (hfull ▸ hs)

theorem warranted (h : now.Covers stack work account) {r : CacheRequest ScriptedLoader}
    (ha : Accountable stack account.told work r) : Warranted stack now.known r := by
  cases r with
  | layer slot op =>
    intro key payload ttl hputs
    cases hputs with
    | set => exact h.justified ha
    | mset hmem => exact h.justified (ha _ _ hmem)
  | land seat outcome =>
    intro key value hseat hvalue
    obtain ⟨key', hseat', ho⟩ := ha value hvalue
    obtain rfl := Stack.fullKey_inj.mp (hseat'.symm.trans hseat)
    exact h.obtained ho
  | _ => trivial

end Ledger.Covers

/-- A call that knows what it is given writes what is known only, and tells nothing else. -/
theorem sources_work (stack : Stack) {work : Work} {known : Knowledge}
    (hgiven : ∀ key content, Given work key content → known key content) :
    (Session.cacheWork (.stacked stack) work).Keeps (sourcing stack work) (AnswersKnown work)
      ⟨known, .outside⟩ := by
  refine (accounts_work stack work).simulate
    (R := fun account now => Ledger.Covers stack work account now)
    ⟨rfl, hgiven _ _, fun he => absurd he List.not_mem_nil⟩ ?_ ?_ ?_
  · rintro account now r hcovers ⟨hprotocol, ha⟩
    exact ⟨hcovers.stance ▸ hprotocol, hcovers.warranted ha⟩
  · rintro account now r reply later hcovers - ⟨hprotocol, hgrown, hheard⟩
    refine ⟨⟨account.told ++ [⟨r, reply⟩], later.stance⟩, ⟨rfl, ?_, ?_⟩,
      hcovers.stance ▸ hprotocol, rfl⟩
    · exact fun hgiven => hgrown _ _ (hcovers.given hgiven)
    · intro e he
      rcases List.mem_append.mp he with he | he
      · exact (hcovers.told he).mono hgrown
      · exact List.mem_singleton.mp he ▸ hheard
  · rintro account now answer hcovers ⟨hstance, hobtained⟩
    exact ⟨hcovers.stance ▸ hstance, fun key content htells => hcovers.obtained (hobtained _ _ htells)⟩

end

-- ---------------------------------------------------------------------------
-- Batch calls key by key
-- ---------------------------------------------------------------------------

def Ledger.Free (now : Ledger) : Prop := now.stance = .outside ∨ ∃ seat, now.stance = .leading seat

structure Ledger.Before (now later : Ledger) : Prop where
  stance : later.stance = now.stance
  known {key : String} {content : Option Bytes} : now.known key content → later.known key content

theorem Ledger.Before.refl (now : Ledger) : now.Before now := ⟨rfl, id⟩

theorem Ledger.Before.trans {now mid later : Ledger} (h : now.Before mid) (h' : mid.Before later) :
    now.Before later :=
  ⟨h'.stance.trans h.stance, fun hk => h'.known (h.known hk)⟩

theorem Ledger.Before.free {now later : Ledger} (h : now.Before later) (hfree : now.Free) :
    later.Free := by
  unfold Free
  rw [h.stance]
  exact hfree

theorem learns_sourcing (stack : Stack) (work : Work) :
    Learns (sourcing stack work) Ledger.Before fun now e => Heard stack work now.known e where
  refl := .refl
  trans := .trans
  admits := ⟨fun ⟨hstance, hgrown, hheard⟩ => ⟨⟨hstance, hgrown _ _⟩, hheard⟩,
    fun ⟨hlater, hheard⟩ => ⟨hlater.stance, fun _ _ => hlater.known, hheard⟩⟩
  kept hlater hheard := hheard.mono fun _ _ => hlater.known
  lookup hpermits hlater := ⟨hlater.free hpermits.1, fun _ _ _ hputs => (nomatch hputs)⟩
  write {k later slot items ttl row payload} hpermits hlater hmem := by
    refine ⟨hlater.free hpermits.1, fun key payload' _ hputs => ?_⟩
    generalize hfull : stack.fullKey key = full at hputs
    cases hputs with
    | set => exact (hpermits.2 key payload ttl (hfull ▸ .mset hmem)).mono fun _ _ => hlater.known
  gathered hhits := heard_layer fun {tier key payload} ht hfinds => by
    generalize hfound : some payload = found at hfinds
    cases hfinds with
    | mget _ =>
      obtain ⟨remaining, hheard⟩ := hhits _ payload hfound.symm
      exact hheard.found ht .get
  unread := heard_layer fun _ hfinds => (nomatch hfinds)
  written := heard_layer fun _ hfinds => (nomatch hfinds)

end StackedCache.Concurrency

import StackedCache.Simulation.Session
import StackedCache.Proofs.Concurrency.SharedBatches

/-!
# Clients of one cache

The tasks that use a cache while callers share the loads of a key: the callers,
and others who read what they like and leave the key alone otherwise. A batch
call reaches a layer at once or, since a store need not have batch calls of its
own, key by key.
-/

namespace StackedCache.Concurrency

open Simulation CacheProc Outlook

variable {Loader : Type}

-- ---------------------------------------------------------------------------
-- Batch calls key by key
-- ---------------------------------------------------------------------------

def getEach (slot : Nat) : List String → CacheProc Loader (Except CacheError BatchHits)
  | [] => pure (.ok {})
  | key :: keys => do
    let found : Except CacheError (Option Entry) ← CacheProc.ask (.layer slot (.get key))
    match found with
    | .error e => pure (.error e)
    | .ok found =>
      match ← getEach slot keys with
      | .error e => pure (.error e)
      | .ok batch =>
        match found with
        | some entry => pure (.ok { batch with hits := batch.hits.insert key entry.payload })
        | none => pure (.ok { batch with missing := key :: batch.missing })

def setEach (slot : Nat) (ttl : Duration) :
    List (String × Bytes) → CacheProc Loader (Except CacheError Unit)
  | [] => pure (.ok ())
  | (key, payload) :: rows => do
    let written : Except CacheError Unit ← CacheProc.ask (.layer slot (.set key payload ttl))
    match written with
    | .error e => pure (.error e)
    | .ok () => setEach slot ttl rows

/-- What a request comes to when batch calls reach the layers key by key. -/
def keywise : (r : CacheRequest Loader) → CacheProc Loader r.Reply
  | .layer slot (.mget keys) => getEach slot keys
  | .layer slot (.mset items ttl) => setEach slot ttl items.rows
  | r => CacheProc.ask r

section
variable {stack : Stack} {key : String} {caller : Prop} {now : Outlook}

theorem minds_getEach (hfree : now.Free) (slot : Nat) (keys : List String) :
    Minds stack key caller now (getEach slot keys : CacheProc Loader _) fun later result =>
      ∃ batch, result = .ok batch ∧ ((∃ tier ∈ stack.tiers, tier.slot = slot) →
        later.stage.Covers key batch.hits) := by
  induction keys generalizing now with
  | nil => exact minds_pure ⟨{}, rfl, fun _ => Stage.covers_empty _⟩
  | cons k keys ih =>
    have hget : Minds stack key caller now
        (CacheProc.ask (.layer slot (.get k)) : CacheProc Loader (Except CacheError (Option Entry)))
        fun later result => ∃ found, result = .ok found ∧ (k = key →
          (∃ tier ∈ stack.tiers, tier.slot = slot) →
          Seen stack later.stage slot (found.map Entry.payload)) :=
      ⟨⟨permits_free rfl hfree, trivial⟩, fun _ _ ha => ha⟩
    refine hget.bind ?_
    rintro mid result hmid ⟨found, rfl, hseen⟩
    refine (ih (hmid.free hfree)).bind ?_
    rintro late result hlate ⟨batch, rfl, hcovers⟩
    cases found with
    | none => exact minds_pure ⟨_, rfl, hcovers⟩
    | some entry =>
      refine minds_pure ⟨_, rfl, fun hslot => (hcovers hslot).insert fun hk => ?_⟩
      exact ((hseen hk hslot).only rfl).later hlate.stage

theorem minds_setEach (hfree : now.Free) (hl : ¬now.Leads key) (slot : Nat) (ttl : Duration)
    {rows : List (String × Bytes)}
    (hrows : ∀ payload, (key, payload) ∈ rows → now.stage.Holds payload) :
    Minds stack key caller now (setEach slot ttl rows : CacheProc Loader _)
      fun _ result => result = .ok () := by
  induction rows generalizing now with
  | nil => exact minds_pure rfl
  | cons row rows ih =>
    obtain ⟨k, payload⟩ := row
    have hset : Minds stack key caller now
        (CacheProc.ask (.layer slot (.set k payload ttl)) : CacheProc Loader (Except CacheError Unit))
        fun _ result => result = .ok () := by
      refine ⟨⟨permits_free rfl hfree, ?_⟩, ?_⟩
      · rintro rfl
        exact hrows payload List.mem_cons_self
      · rintro reply later ⟨rfl, -, hlater⟩
        exact ⟨hlater fun h => hl h.1, rfl⟩
    refine hset.bind ?_
    rintro mid result hmid rfl
    refine ih (hmid.free hfree) (fun h => hl (hmid.leads.mp h)) fun payload hmem => ?_
    exact (hrows payload (List.mem_cons_of_mem _ hmem)).later hmid.stage

theorem keeps_keywise {α : Type} {p : CacheProc Loader α} {post : Outlook → α → Prop}
    (h : p.Keeps (minding stack key caller) post now) :
    (p.translate keywise).Keeps (minding stack key caller) post now := by
  refine h.translate ?_
  rintro now r ⟨hprotocol, hr⟩
  cases r with
  | layer slot op =>
    have hfree : now.Free := hprotocol
    cases op with
    | mget keys => exact minds_getEach hfree slot keys
    | mset items ttl =>
      refine Proc.Keeps.mono (minds_setEach hfree hr.1 slot ttl hr.2) ?_
      rintro later reply ⟨hlater, rfl⟩
      exact ⟨rfl, hlater⟩
    | _ => exact ⟨⟨hprotocol, hr⟩, fun _ _ ha => ha⟩
  | _ => exact ⟨⟨hprotocol, hr⟩, fun _ _ ha => ha⟩

end

-- ---------------------------------------------------------------------------
-- Clients
-- ---------------------------------------------------------------------------

/-- The call neither writes a key nor deletes it. Lookups of the key are allowed. -/
def Spares (key : String) : Work → Prop
  | .set k _ _ | .delete k | .remember k _ _ => k ≠ key
  | .mset items _ => items.get? key = none
  | .mremember keys _ _ => key ∉ keys
  | _ => True

structure Client where
  work : Work
  /-- Whether its batch calls reach the layers key by key. -/
  keywise : Bool

def Client.program (stack : Stack) (client : Client) : CacheProc ScriptedLoader Answer :=
  let program := Session.cacheWork (.stacked stack) client.work
  if client.keywise then program.translate Concurrency.keywise else program

/-- The programs of callers for a key, each with a loader and options of its own, and of
other clients. -/
def programs (stack : Stack) (key : String) (calls : List (ScriptedLoader × RememberOptions))
    (others : List Client) : List (CacheProc ScriptedLoader Answer) :=
  calls.map (fun call => Session.cacheWork (.stacked stack) (.remember key call.1 call.2)) ++
    others.map (Client.program stack)

/-- A task ends outside of flights, a caller with what was loaded. -/
def Finished (caller : Prop) (later : Outlook) (answer : Answer) : Prop :=
  later.stance = .outside ∧ (caller →
    ∃ finding : Finding, later.stage.finding? = some finding ∧ answer = .ofOutcome finding.outcome)

section
variable {stack : Stack} {key : String} {caller : Prop} {now : Outlook}

theorem Minds.finished {α : Type} {p : CacheProc ScriptedLoader α} {post : Outlook → α → Prop}
    {f : α → CacheProc ScriptedLoader Answer} (h : Minds stack key caller now p post)
    (hout : now.stance = .outside) (hc : ¬caller)
    (hf : ∀ mid a, post mid a → ∃ answer, f a = pure answer) :
    (p >>= f).Keeps (minding stack key caller) (Finished caller) now := by
  refine h.andThen fun mid a hmid ha => ?_
  obtain ⟨answer, hanswer⟩ := hf mid a ha
  rw [hanswer]
  exact ⟨hmid.stance.trans hout, fun h => absurd h hc⟩

theorem finished_work (hout : now.stance = .outside) (hc : ¬caller) (htiers : stack.tiers ≠ [])
    {work : Work} (hspares : Spares key work) :
    (Session.cacheWork (.stacked stack) work).Keeps (minding stack (stack.fullKey key) caller)
      (Finished caller) now := by
  have hfree : now.Free := .inl hout
  have hother {k : String} (hk : k ≠ key) : stack.fullKey k ≠ stack.fullKey key :=
    fun h => hk (Stack.fullKey_inj.mp h)
  have hleads : ¬now.Leads (stack.fullKey key) := not_leads hout
  cases work with
  | get k =>
    refine (minds_get hfree htiers fun _ h => absurd h hleads).finished hout hc ?_
    rintro mid result ⟨found, rfl, -⟩
    exact ⟨_, rfl⟩
  | getValue k =>
    have hvalue : Minds stack (stack.fullKey key) caller now
        (Cache.getValue (.stacked stack) k : CacheProc ScriptedLoader _) fun _ _ => True := by
      refine (minds_get hfree htiers fun _ h => absurd h hleads).bind ?_
      rintro mid result - ⟨found, rfl, -⟩
      cases found <;> exact minds_pure trivial
    exact hvalue.finished hout hc fun _ _ _ => ⟨_, rfl⟩
  | set k value ttl =>
    refine (minds_set hfree (hother hspares) value ttl).finished hout hc fun _ _ _ => ⟨_, rfl⟩
  | delete k =>
    exact (minds_deleteEach hfree (hother hspares) stack.tiers).finished hout hc
      fun _ _ _ => ⟨_, rfl⟩
  | mset items ttl =>
    refine (minds_mset hfree (fun item hitem => hother ?_) ttl).finished hout hc
      fun _ _ _ => ⟨_, rfl⟩
    rintro rfl
    have hget : items.get? item.1 = some item.2 := Table.get?_eq_some_iff.mpr hitem
    rw [hspares] at hget
    cases hget
  | close => exact (minds_close hfree).finished hout hc fun _ _ _ => ⟨_, rfl⟩
  | remember k loader options =>
    refine (ends_remember hout hc (hother hspares) htiers loader options).bind ?_
    exact fun later outcome hlater => ⟨hlater, fun h => absurd h hc⟩
  | mget keys =>
    refine (minds_mget hout keys).finished hout hc ?_
    rintro mid result ⟨batch, rfl, -⟩
    exact ⟨_, rfl⟩
  | mremember keys loader options =>
    refine (minds_mremember hout hc (fun k hk => hother ?_) loader options).finished hout hc ?_
    · rintro rfl
      exact hspares hk
    · rintro mid result -
      cases result <;> exact ⟨_, rfl⟩
  | _ => exact ⟨hout, fun h => absurd h hc⟩

theorem finished_client (hout : now.stance = .outside) (hc : ¬caller) (htiers : stack.tiers ≠ [])
    {client : Client} (hspares : Spares key client.work) :
    (client.program stack).Keeps (minding stack (stack.fullKey key) caller) (Finished caller) now := by
  unfold Client.program
  simp only
  split
  · exact keeps_keywise (finished_work hout hc htiers hspares)
  · exact finished_work hout hc htiers hspares

theorem finished_caller (hout : now.stance = .outside) (hc : caller) (htiers : stack.tiers ≠ [])
    (loader : ScriptedLoader) {options : RememberOptions}
    (hpolicy : options.policy.getD stack.settings.policy = .singleFlight) :
    (Session.cacheWork (.stacked stack) (.remember key loader options)).Keeps
      (minding stack (stack.fullKey key) caller) (Finished caller) now := by
  refine (returns_remember hout hc rfl htiers loader hpolicy).bind ?_
  rintro later outcome ⟨hlater, finding, hfinding, rfl⟩
  exact ⟨hlater, fun _ => ⟨finding, hfinding, rfl⟩⟩

end

end StackedCache.Concurrency

import StackedCache.Cache.Batch
import StackedCache.Proofs.Concurrency.SharedKey

/-!
# Batches while others act

A batch keeps the discipline of a shared key: it copies upwards what it has
read, which under the key is what was loaded, and writes under other keys.
-/

namespace StackedCache

namespace Concurrency

open CacheProc Outlook

variable {Loader : Type} {stack : Stack} {key : String} {caller : Prop} {now : Outlook}

def Stage.Covers (stage : Stage) (key : String) (table : Table Bytes) : Prop :=
  ∀ payload, table.get? key = some payload → stage.Holds payload

theorem Stage.Covers.later {stage stage' : Stage} {table : Table Bytes} (h : stage.Covers key table)
    (hle : stage ≤ stage') : stage'.Covers key table :=
  fun payload hp => (h payload hp).later hle

theorem Stage.Covers.insert {stage : Stage} {table : Table Bytes} {k : String} {payload : Bytes}
    (h : stage.Covers key table) (hk : k = key → stage.Holds payload) :
    stage.Covers key (table.insert k payload) := by
  intro payload' hp
  rw [Table.get?_insert] at hp
  split at hp
  · rename_i heq
    cases hp
    exact hk heq
  · exact h payload' hp

theorem Stage.covers_empty (stage : Stage) : stage.Covers key {} := by
  intro payload hp
  cases hp

theorem not_leads (hout : now.stance = .outside) : ¬now.Leads key := by
  rintro ⟨seat, hseat, -⟩
  rw [hout] at hseat
  cases hseat

-- ---------------------------------------------------------------------------
-- Reading a batch
-- ---------------------------------------------------------------------------

theorem minds_mgetFrom (hfree : now.Free) {tier : Tier} (htier : tier ∈ stack.tiers)
    (keys : List String) :
    Minds stack key caller now (mgetFrom tier keys : CacheProc Loader _) fun later result =>
      ∃ batch, result = .ok batch ∧ later.stage.Covers key batch.hits := by
  refine ⟨⟨permits_free rfl hfree, trivial⟩, ?_⟩
  rintro reply later ⟨hlater, batch, rfl, hcovers⟩
  exact ⟨hlater, batch, rfl, hcovers ⟨tier, htier, rfl⟩⟩

theorem minds_msetIn (hout : now.stance = .outside) (tier : Tier) {items : Table Bytes}
    (hitems : now.stage.Covers key items) (ttl : Duration) :
    Minds stack key caller now (msetIn tier items ttl : CacheProc Loader _)
      fun _ result => result = .ok () :=
  ⟨⟨permits_free rfl (.inl hout), not_leads hout,
    fun payload hmem => hitems payload (Table.get?_eq_some_iff.mpr hmem)⟩, fun _ _ ha => ⟨ha.2, ha.1⟩⟩

theorem minds_fetchEach (hfree : now.Free) {tier : Tier} (htier : tier ∈ stack.tiers)
    (keys : List String) {found : Table Bytes} (hfound : now.stage.Covers key found) :
    Minds stack key caller now (Stack.fetchEach tier found keys : CacheProc Loader _)
      fun later result => ∃ table, result = .ok table ∧ later.stage.Covers key table := by
  induction keys generalizing now found with
  | nil => exact minds_pure ⟨found, rfl, hfound⟩
  | cons k keys ih =>
    refine (minds_getFrom hfree htier).bind ?_
    rintro mid result hmid ⟨entry, rfl, hseen⟩
    have hcovers := hfound.later hmid.stage
    cases entry with
    | none => exact ih (hmid.free hfree) hcovers
    | some entry => exact ih (hmid.free hfree) (hcovers.insert fun hk => (hseen hk).only rfl)

theorem minds_fetch (hfree : now.Free) {tier : Tier} (htier : tier ∈ stack.tiers)
    (keys : List String) :
    Minds stack key caller now (Stack.fetch tier keys : CacheProc Loader _)
      fun later result => ∃ table, result = .ok table ∧ later.stage.Covers key table := by
  unfold Stack.fetch
  split
  · refine (minds_mgetFrom hfree htier keys).bind ?_
    rintro mid result - ⟨batch, rfl, hcovers⟩
    exact minds_pure ⟨batch.hits, rfl, hcovers⟩
  · exact minds_fetchEach hfree htier keys (Stage.covers_empty _)

structure SortedFor (key : String) (later : Outlook) (keys : List String)
    (sorted : Stack.Sorted) : Prop where
  promoted : later.stage.Covers key sorted.promoted
  pending {k : String} : k ∈ sorted.pending → k ∈ keys

theorem minds_sortOne (hfree : now.Free) (tier : Tier) {found : Table Bytes}
    (hfound : now.stage.Covers key found) {keys : List String} {sorted : Stack.Sorted}
    (hsorted : SortedFor key now keys sorted) {k : String} (hk : k ∈ keys) :
    Minds stack key caller now (stack.sortOne tier found sorted k : CacheProc Loader _)
      fun later sorted => SortedFor key later keys sorted := by
  have hpending {mid : Outlook} (hmid : now.Later key mid) :
      SortedFor key mid keys { sorted with pending := sorted.pending ++ [k] } := by
    refine ⟨hsorted.promoted.later hmid.stage, fun {k'} hk' => ?_⟩
    rcases List.mem_append.mp hk' with hold | hnew
    · exact hsorted.pending hold
    · exact List.mem_singleton.mp hnew ▸ hk
  unfold Stack.sortOne
  cases hget : found.get? (stack.fullKey k) with
  | none => exact minds_pure (hpending (.refl key now))
  | some payload =>
    simp only
    cases Record.decode payload with
    | none => exact (minds_notice hfree _).bind fun mid _ hmid _ => minds_pure (hpending hmid)
    | some record =>
      cases record with
      | negative => exact (minds_count hfree _).bind fun mid _ hmid _ => minds_pure (hpending hmid)
      | positive value =>
        refine (minds_count hfree _).bind fun mid _ hmid _ => minds_pure ⟨?_, hsorted.pending⟩
        refine (hsorted.promoted.later hmid.stage).insert fun heq => ?_
        exact (hfound payload (heq ▸ hget)).later hmid.stage

theorem minds_sortAll (hfree : now.Free) (tier : Tier) {found : Table Bytes}
    (hfound : now.stage.Covers key found) {all keys : List String} (hkeys : ∀ k ∈ keys, k ∈ all)
    {sorted : Stack.Sorted} (hsorted : SortedFor key now all sorted) :
    Minds stack key caller now (stack.sortAll tier found sorted keys : CacheProc Loader _)
      fun later sorted => SortedFor key later all sorted := by
  induction keys generalizing now sorted with
  | nil => exact minds_pure hsorted
  | cons k keys ih =>
    obtain ⟨hk, hrest⟩ := List.forall_mem_cons.mp hkeys
    refine (minds_sortOne hfree tier hfound hsorted hk).bind fun mid sorted hmid hsorted => ?_
    exact ih (hmid.free hfree) (hfound.later hmid.stage) hrest hsorted

theorem minds_writeItems (hout : now.stance = .outside) (tier : Tier) (ttl : Duration)
    {rows : List (String × Bytes)} (hrows : ∀ payload, (key, payload) ∈ rows → now.stage.Holds payload) :
    Minds stack key caller now (Stack.writeItems tier ttl (.ok ()) rows : CacheProc Loader _)
      fun _ result => result = .ok () := by
  induction rows generalizing now with
  | nil => exact minds_pure rfl
  | cons row rows ih =>
    obtain ⟨k, payload⟩ := row
    refine (minds_setIn (.inl hout) tier ttl ?_ fun _ h => absurd h (not_leads hout)).bind ?_
    · rintro rfl
      exact hrows payload List.mem_cons_self
    · rintro mid result hmid rfl
      refine ih (hmid.stance.trans hout) fun payload hmem => ?_
      exact (hrows payload (List.mem_cons_of_mem _ hmem)).later hmid.stage

theorem minds_backfillAll (hout : now.stance = .outside) {items : Table Bytes}
    (hitems : now.stage.Covers key items) (tiers : List Tier) :
    Minds stack key caller now (stack.backfillAll items tiers : CacheProc Loader Unit)
      fun _ _ => True := by
  induction tiers generalizing now with
  | nil => exact minds_pure trivial
  | cons tier rest ih =>
    have hwrite : Minds stack key caller now
        (if tier.batched then msetIn tier items stack.settings.defaultTtl
          else Stack.writeItems tier stack.settings.defaultTtl (.ok ()) items.rows : CacheProc Loader _)
        fun _ result => result = .ok () := by
      split
      · exact minds_msetIn hout tier hitems _
      · exact minds_writeItems hout tier _ fun payload hmem => hitems payload (Table.get?_eq_some_iff.mpr hmem)
    refine hwrite.bind ?_
    rintro mid result hmid rfl
    have hout := hmid.stance.trans hout
    refine (minds_notice (.inl hout) _).bind fun late _ hlate _ => ?_
    exact ih (hlate.stance.trans hout) (hitems.later (Stage.le_trans hmid.stage hlate.stage))

theorem minds_fetchFrom (hout : now.stance = .outside) {below : List Tier}
    (hbelow : ∀ tier ∈ below, tier ∈ stack.tiers) (hits : Table Bytes) {all pending : List String}
    (hpending : ∀ k ∈ pending, k ∈ all) (above : List Tier) :
    Minds stack key caller now (stack.fetchFrom hits pending above below : CacheProc Loader _)
      fun _ result => ∃ batch, result = .ok batch ∧ ∀ k ∈ batch.missing, k ∈ all := by
  induction below generalizing now hits pending above with
  | nil =>
    exact (minds_notice (.inl hout) _).bind fun _ _ _ _ => minds_pure ⟨_, rfl, hpending⟩
  | cons tier below ih =>
    obtain ⟨htier, hbelow⟩ := List.forall_mem_cons.mp hbelow
    unfold Stack.fetchFrom
    split
    · exact (minds_notice (.inl hout) _).bind fun _ _ _ _ => minds_pure ⟨_, rfl, List.forall_mem_nil _⟩
    · refine (minds_fetch (.inl hout) htier _).bind ?_
      rintro mid result hmid ⟨found, rfl, hfound⟩
      have hout := hmid.stance.trans hout
      have hstart : SortedFor key mid all { hits := hits } := ⟨Stage.covers_empty _, by simp⟩
      refine (minds_sortAll (.inl hout) tier hfound hpending hstart).bind ?_
      intro late sorted hlate hsorted
      have hout := hlate.stance.trans hout
      have hrest {last : Outlook} (hout : last.stance = .outside) :=
        ih hout hbelow sorted.hits (fun k hk => hsorted.pending hk) (above ++ [tier])
      simp only
      split
      · exact hrest hout
      · refine (minds_backfillAll hout hsorted.promoted above).bind fun last _ hlast _ => ?_
        exact hrest (hlast.stance.trans hout)

theorem mem_of_distinctKeys {seen keys : List String} {k : String} (h : k ∈ distinctKeys seen keys) :
    k ∈ keys := by
  induction keys generalizing seen with
  | nil => cases h
  | cons key keys ih =>
    unfold distinctKeys at h
    split at h
    · exact List.mem_cons_of_mem _ (ih h)
    · rcases List.mem_cons.mp h with rfl | h
      · exact List.mem_cons_self
      · exact List.mem_cons_of_mem _ (ih h)

theorem minds_mget (hout : now.stance = .outside) (keys : List String) :
    Minds stack key caller now (stack.mget keys : CacheProc Loader _)
      fun _ result => ∃ batch, result = .ok batch ∧ ∀ k ∈ batch.missing, k ∈ keys := by
  unfold Stack.mget
  simp only
  split
  · exact minds_pure ⟨{}, rfl, List.forall_mem_nil _⟩
  · exact minds_fetchFrom hout (fun _ h => h) {} (fun _ h => mem_of_distinctKeys h) []

-- ---------------------------------------------------------------------------
-- Writing a batch under other keys
-- ---------------------------------------------------------------------------

theorem minds_drawRows (hfree : now.Free) (ttl : Duration) {items : List (String × Bytes)}
    (hitems : ∀ item ∈ items, stack.fullKey item.1 ≠ key) :
    Minds stack key caller now (stack.drawRows ttl items : CacheProc Loader _)
      fun _ rows => ∀ row ∈ rows, row.1 ≠ key := by
  induction items generalizing now with
  | nil => exact minds_pure (List.forall_mem_nil _)
  | cons item items ih =>
    obtain ⟨hitem, hitems⟩ := List.forall_mem_cons.mp hitems
    refine (minds_jittered hfree ttl).bind fun mid jittered hmid _ => ?_
    refine (ih (hmid.free hfree) hitems).bind fun late rows _ hrows => ?_
    exact minds_pure (List.forall_mem_cons.mpr ⟨hitem, hrows⟩)

theorem minds_writeRows (hfree : now.Free) (tier : Tier) {rows : List (String × Bytes × Duration)}
    (hrows : ∀ row ∈ rows, row.1 ≠ key) :
    Minds stack key caller now (Stack.writeRows tier (.ok ()) rows : CacheProc Loader _)
      fun _ result => result = .ok () := by
  induction rows generalizing now with
  | nil => exact minds_pure rfl
  | cons row rows ih =>
    obtain ⟨k, payload, ttl⟩ := row
    obtain ⟨hk, hrows⟩ := List.forall_mem_cons.mp hrows
    refine (minds_setIn hfree tier ttl (fun h => absurd h hk) fun h => absurd h hk).bind ?_
    rintro mid result hmid rfl
    exact ih (hmid.free hfree) hrows

theorem minds_writeRowsEach (hfree : now.Free) {rows : List (String × Bytes × Duration)}
    (hrows : ∀ row ∈ rows, row.1 ≠ key) (tiers : List Tier) :
    Minds stack key caller now (Stack.writeRowsEach rows (.ok ()) tiers : CacheProc Loader _)
      fun _ result => result = .ok () := by
  induction tiers generalizing now with
  | nil => exact minds_pure rfl
  | cons tier rest ih =>
    refine (minds_writeRows hfree tier hrows).bind ?_
    rintro mid result hmid rfl
    exact ih (hmid.free hfree)

theorem minds_mset (hfree : now.Free) {items : Table Bytes}
    (hitems : ∀ item ∈ items.rows, stack.fullKey item.1 ≠ key) (ttl : Duration) :
    Minds stack key caller now (stack.mset items ttl : CacheProc Loader _)
      fun _ result => result = .ok () := by
  unfold Stack.mset
  split
  · exact minds_pure rfl
  · refine (minds_drawRows hfree _ hitems).bind fun mid rows hmid hrows => ?_
    exact minds_writeRowsEach (hmid.free hfree) hrows stack.tiers

theorem minds_storeLoaded (hfree : now.Free) (loaded : Table Loaded) (ttl : Duration)
    (hits : Table Bytes) {keys : List String} (hkeys : ∀ k ∈ keys, stack.fullKey k ≠ key) :
    Minds stack key caller now (stack.storeLoaded loaded ttl hits keys : CacheProc Loader _)
      fun _ _ => True := by
  induction keys generalizing now hits with
  | nil => exact minds_pure trivial
  | cons k keys ih =>
    obtain ⟨hk, hkeys⟩ := List.forall_mem_cons.mp hkeys
    unfold Stack.storeLoaded
    cases loaded.get? k with
    | some item =>
      refine (minds_set hfree hk item.value _).bind ?_
      rintro mid result hmid rfl
      exact ih (hmid.free hfree) _ hkeys
    | none =>
      refine (minds_setNegative hfree hk).bind ?_
      rintro mid result hmid rfl
      exact ih (hmid.free hfree) _ hkeys

theorem minds_mremember (hout : now.stance = .outside) (hc : ¬caller) {keys : List String}
    (hkeys : ∀ k ∈ keys, stack.fullKey k ≠ key) (loader : Loader) (options : RememberOptions) :
    Minds stack key caller now (stack.mremember keys loader options) fun _ _ => True := by
  refine (minds_mget hout keys).bind ?_
  rintro mid result hmid ⟨batch, rfl, hmissing⟩
  have hout := hmid.stance.trans hout
  have hload {late : Outlook} (hlate : late.Free) :
      Minds stack key caller late (loadMany loader batch.missing) fun _ _ => True :=
    ⟨⟨permits_free rfl hlate, hc⟩, fun _ _ ha => ⟨ha, trivial⟩⟩
  simp only
  split
  · exact minds_pure trivial
  · refine (minds_count (.inl hout) _).bind fun late _ hlate _ => ?_
    have hfree := hlate.free (.inl hout)
    refine (hload hfree).bind fun last reply hlast _ => ?_
    have hfree := hlast.free hfree
    cases reply with
    | error e => exact minds_pure trivial
    | ok loaded =>
      refine (minds_storeLoaded hfree loaded _ _ fun k hk => hkeys k (hmissing k hk)).bind ?_
      intro stored values hstored _
      split
      · exact minds_pure trivial
      · exact (minds_notice (hstored.free hfree) _).bind fun _ _ _ _ => minds_pure trivial

end Concurrency

end StackedCache
